import Headroom.Json.Decoder
import Headroom.Proofs.Checked
import Headroom.Proofs.Grammar

/-! Decoders that give a value only for a tree without a flaw. All that read a single value do, and
whatever is composed of such decoders does. -/

namespace Headroom.Json

/-- What the decoder gives a value for has no flaw. -/
def Strict {α : Type} (decode : Decoder α) : Prop :=
  ∀ ⦃tree a⦄, decode tree = .ok a → tree.Closed

section Strict

variable {α β : Type} {decode : Decoder α}

theorem wrongType_ne_ok (wanted : String) (tree : Tree) (a : α) :
    wrongType wanted tree ≠ .ok a := by
  intro h
  obtain ⟨found, -, hthrow⟩ := bind_eq_ok_iff.mp h
  cases hthrow

theorem strict_string : Strict Decode.string := by
  intro tree a h
  unfold Decode.string at h
  split at h
  · rfl
  · exact absurd h (wrongType_ne_ok _ _ _)

theorem strict_bool : Strict Decode.bool := by
  intro tree a h
  unfold Decode.bool at h
  split at h
  · rfl
  · exact absurd h (wrongType_ne_ok _ _ _)

theorem strict_word : Strict Decode.word := by
  intro tree a h
  unfold Decode.word at h
  split at h
  · rfl
  · rfl
  · exact absurd h (wrongType_ne_ok _ _ _)

theorem Strict.optional (h : Strict decode) : Strict (Decode.optional decode) := by
  intro tree a htree
  unfold Decode.optional at htree
  split at htree
  · rfl
  · obtain ⟨value, hvalue, -⟩ := bind_eq_ok_iff.mp htree
    exact h hvalue

theorem Ending.reach_eq_ok_iff {ending : Ending} {u : Unit} :
    ending.reach = .ok u ↔ ending = .closed := by
  cases ending <;> simp [Ending.reach]

theorem forall_of_mapM {f : β → Except ReadError α} {p : β → Prop}
    (hf : ∀ b a, f b = .ok a → p b) {bs : List β} {as : List α} (h : bs.mapM f = .ok as) :
    ∀ b ∈ bs, p b := by
  intro b hb
  obtain ⟨i, hi, rfl⟩ := List.getElem_of_mem hb
  have hall := mapM_eq_ok_iff_forall₂.mp h
  exact hf _ _ (hall.get hi (hall.length_eq ▸ hi))

theorem Strict.list (h : Strict decode) : Strict (Decode.list decode) := by
  intro tree as htree
  unfold Decode.list at htree
  split at htree
  · obtain ⟨values, hvalues, hmore⟩ := bind_eq_ok_iff.mp htree
    obtain ⟨_, hreach, -⟩ := bind_eq_ok_iff.mp hmore
    exact Tree.closed_array.mpr
      ⟨forall_of_mapM (fun _ _ hitem => h hitem) hvalues, Ending.reach_eq_ok_iff.mp hreach⟩
  · exact absurd htree (wrongType_ne_ok _ _ _)

theorem closed_of_entry (member : Option String × Tree) (row : String × String)
    (h : Decode.entry member = .ok row) : member.2.Closed := by
  unfold Decode.entry at h
  split at h
  · cases h
  · obtain ⟨s, hs, -⟩ := bind_eq_ok_iff.mp h
    exact strict_string hs

theorem strict_dictionary : Strict Decode.dictionary := by
  intro tree d htree
  unfold Decode.dictionary at htree
  split at htree
  · obtain ⟨rows, hrows, hmore⟩ := bind_eq_ok_iff.mp htree
    obtain ⟨_, hreach, -⟩ := bind_eq_ok_iff.mp hmore
    exact Tree.closed_object.mpr
      ⟨forall_of_mapM closed_of_entry hrows, Ending.reach_eq_ok_iff.mp hreach⟩
  · exact absurd htree (wrongType_ne_ok _ _ _)

theorem skip_eq_ok_iff {tree : Tree} {u : Unit} : skip tree = .ok u ↔ tree.Closed := by
  unfold skip Tree.Closed
  split <;> simp_all

end Strict

/-! ### Items of an array -/

namespace Items

/-- No flaw is left in the items or at the end. -/
def Closed (rest : Items) : Prop := (Tree.array rest.items rest.ending).Closed

theorem closed_of_close {rest : Items} {u : Unit} (h : rest.close = .ok u) : rest.Closed := by
  unfold close at h
  split at h
  · rename_i hempty
    rw [Closed, List.isEmpty_iff.mp hempty, Ending.reach_eq_ok_iff.mp h]
    rfl
  · cases h

/-- What the decoder takes off an array has no flaw. -/
def Strict {α : Type} (decode : ItemsDecoder α) : Prop :=
  ∀ ⦃rest left a⦄, decode.run rest = .ok (a, left) → left.Closed → rest.Closed

variable {α β : Type}

theorem strict_pure (a : α) : Strict (pure a) := by
  rintro rest left b h hleft
  cases h
  exact hleft

theorem Strict.bind {decode : ItemsDecoder α} {f : α → ItemsDecoder β} (h : Strict decode)
    (hf : ∀ a, Strict (f a)) : Strict (decode >>= f) := by
  intro rest left b hrun hleft
  obtain ⟨⟨a, middle⟩, hfirst, hlater⟩ := bind_eq_ok_iff.mp hrun
  exact h hfirst (hf a hlater hleft)

theorem strict_throw (e : ReadError) : Strict (throw e : ItemsDecoder α) := by
  intro rest left a h
  cases h

theorem strict_next? {decode : Decoder α} (h : Json.Strict decode) : Strict (next? decode) := by
  rintro ⟨items, ending⟩ left a hrun hleft
  cases items with
  | nil =>
    obtain ⟨_, hreach, hmore⟩ := bind_eq_ok_iff.mp hrun
    rw [Closed, Ending.reach_eq_ok_iff.mp hreach]
    rfl
  | cons item items =>
    obtain ⟨value, hvalue, hmore⟩ := bind_eq_ok_iff.mp hrun
    cases hmore
    obtain ⟨hitems, hending⟩ := Tree.closed_array.mp hleft
    exact Tree.closed_array.mpr ⟨List.forall_mem_cons.mpr ⟨h hvalue, hitems⟩, hending⟩

theorem strict_require {decode : Decoder α} (h : Json.Strict decode) (wanted : String)
    (index : Nat) : Strict (require wanted index decode) := by
  refine (strict_next? h).bind fun found => ?_
  cases found with
  | some a => exact strict_pure a
  | none => exact strict_throw _

end Items

/-! ### Records -/

namespace RecordForm

variable {σ α : Type} {form : RecordForm σ α}

section

variable
  (hput : ∀ name value fields after, form.put name value fields = .ok after → value.Closed)

include hput

theorem closed_of_putAll {members : List (Option String × Tree)} {fields after : σ}
    (h : form.putAll members fields = .ok after) : ∀ member ∈ members, member.2.Closed := by
  induction members generalizing fields with
  | nil => simp
  | cons member members ih =>
    obtain ⟨name, value⟩ := member
    cases name with
    | none => cases h
    | some name =>
      obtain ⟨next, hnext, hlater⟩ := bind_eq_ok_iff.mp h
      exact List.forall_mem_cons.mpr ⟨hput name value fields next hnext, ih hlater⟩

/-- A record is read strictly if each of its members and its items are. -/
theorem strict_decode (hitems : Items.Strict form.ofItems) : Strict form.decode := by
  intro tree a h
  unfold decode at h
  split at h
  · obtain ⟨fields, hfields, hmore⟩ := bind_eq_ok_iff.mp h
    obtain ⟨_, hreach, -⟩ := bind_eq_ok_iff.mp hmore
    exact Tree.closed_object.mpr
      ⟨closed_of_putAll hput hfields, Ending.reach_eq_ok_iff.mp hreach⟩
  · obtain ⟨⟨_, left⟩, hrun, hmore⟩ := bind_eq_ok_iff.mp h
    obtain ⟨_, hclose, -⟩ := bind_eq_ok_iff.mp hmore
    exact hitems hrun (Items.closed_of_close hclose)
  · exact absurd h (wrongType_ne_ok _ _ _)

end

end RecordForm

/-! ### Texts -/

theorem decodeText_of_spelled {α : Type} (decode : Decoder α) {tree : Tree} {text : String}
    (h : tree.Spelled text.toList) : decodeText decode text = decode tree := by
  rw [decodeText, (Tree.ofText_eq_iff.mpr h).1]
  dsimp only
  cases decode tree <;> rfl

/-- A text that a strict decoder gives a value for is the text of a tree. -/
theorem Strict.exists_spelled {α : Type} {decode : Decoder α} (hdecode : Strict decode)
    {text : String} {a : α} (h : decodeText decode text = .ok a) :
    ∃ tree : Tree, tree.Spelled text.toList := by
  unfold decodeText at h
  generalize hread : Tree.ofText text.toList = read at h
  obtain ⟨tree, rest⟩ := read
  obtain ⟨value, hvalue, hmore⟩ := bind_eq_ok_iff.mp h
  split at hmore
  · rename_i hrest
    rw [List.isEmpty_iff.mp hrest] at hread
    exact ⟨tree, Tree.ofText_eq_iff.mp ⟨hread, hdecode hvalue⟩⟩
  · cases hmore

end Headroom.Json
