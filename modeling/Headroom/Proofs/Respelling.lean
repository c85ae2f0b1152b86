import Mathlib
import Headroom.Proofs.Strict

/-! Ways to write one record. A record is described by its fields; the members of its object may be
written in any order and with others among them, a field may be left out where its value is the one
that it then has, and the values may stand in an array. A form that keeps its fields in separate
places decodes all of these alike. -/

namespace Headroom.Json

/-- A field of a record: its name, the value that it has where an object leaves it out, whether an
array may end before it, and which values of it are written alike. -/
structure Field where
  name : String
  absent? : Option Tree := none
  endsArray : Bool := false
  Alike : Tree → Tree → Prop := Eq

/-- The member of an object that gives a field a value. -/
def Field.member (field : Field) (value : Tree) : Option String × Tree := (some field.name, value)

/-- One change to the way in which a record is written: the members are put in another order, a
member of a name that is no field's is added, or one whose value is the default, or the object gives
way to an array of its values, or one value is written in another way. -/
inductive Rewrites (fields : List Field) : Tree → Tree → Prop
  | reorder {members others : List (Option String × Tree)} (h : members.Perm others) :
    Rewrites fields (.object members .closed) (.object others .closed)
  | unknown {members : List (Option String × Tree)} {name : String} {value : Tree}
    (hname : name ∉ fields.map Field.name) (hvalue : value.Closed) :
    Rewrites fields (.object members .closed) (.object ((some name, value) :: members) .closed)
  | absent {members : List (Option String × Tree)} {field : Field} {value : Tree}
    (hfield : field ∈ fields) (hvalue : field.absent? = some value)
    (hmembers : some field.name ∉ members.map Prod.fst) :
    Rewrites fields (.object members .closed) (.object (field.member value :: members) .closed)
  | array {values : List Tree} (hlength : values.length ≤ fields.length)
    (hends : ∀ field ∈ fields.drop values.length, field.endsArray = true) :
    Rewrites fields (.object (List.zipWith Field.member fields values) .closed)
      (.array values .closed)
  | value {members : List (Option String × Tree)} {field : Field} {value other : Tree}
    (hfield : field ∈ fields) (h : field.Alike value other) :
    Rewrites fields (.object (field.member value :: members) .closed)
      (.object (field.member other :: members) .closed)

/-- The trees are ways to write one record: changes lead from one to the other. -/
def Respelled (fields : List Field) : Tree → Tree → Prop := Relation.EqvGen (Rewrites fields)

/-- Arrays of as many items, each written as its counterpart may be. -/
inductive Itemwise (Alike : Tree → Tree → Prop) : Tree → Tree → Prop
  | intro {items others : List Tree} (h : List.Forall₂ Alike items others) :
    Itemwise Alike (.array items .closed) (.array others .closed)

theorem Itemwise.mono {Alike Other : Tree → Tree → Prop}
    (h : ∀ {tree other}, Alike tree other → Other tree other) {tree other : Tree}
    (hitems : Itemwise Alike tree other) : Itemwise Other tree other := by
  obtain ⟨hitems⟩ := hitems
  exact .intro (hitems.imp fun _ _ => h)

/-- The decoder gives both trees the same value, or neither of them one. -/
def Agree {α : Type} (decode : Decoder α) (tree other : Tree) : Prop :=
  ∀ a, decode tree = .ok a ↔ decode other = .ok a

theorem Agree.equivalence {α : Type} (decode : Decoder α) : Equivalence (Agree decode) where
  refl _ _ := Iff.rfl
  symm h a := (h a).symm
  trans h hmore a := (h a).trans (hmore a)

theorem Agree.list {α : Type} {decode : Decoder α} {tree other : Tree}
    (h : Itemwise (Agree decode) tree other) : Agree (Decode.list decode) tree other := by
  obtain ⟨hitems⟩ := h
  rename_i items others
  have hmap : ∀ values, items.mapM decode = .ok values ↔ others.mapM decode = .ok values := by
    intro values
    rw [mapM_eq_ok_iff_forall₂, mapM_eq_ok_iff_forall₂]
    induction hitems generalizing values with
    | nil => rfl
    | cons hitem _ ih =>
      rw [List.forall₂_cons_left_iff, List.forall₂_cons_left_iff]
      simp only [hitem _, ih]
  intro as
  rw [Decode.list, Decode.list, bind_eq_ok_iff, bind_eq_ok_iff]
  simp only [hmap]

/-! ### Places -/

/-- A field with the place that its value is kept in while an object is read. -/
structure Place (σ : Type) extends Field where
  Content : Type
  decode : Decoder Content
  get : σ → Option Content
  set : Option Content → σ → σ
  get_set : ∀ c fields, get (set c fields) = c := by intros; rfl
  strict : Strict decode
  alike : ∀ value other, Alike value other → Agree decode value other := by
    rintro _ _ rfl
    exact fun _ => Iff.rfl

/-- Neither place is touched with the other. -/
@[mk_iff] structure Place.Apart {σ : Type} (p q : Place σ) : Prop where
  left : ∀ c fields, p.get (q.set c fields) = p.get fields
  right : ∀ c fields, q.get (p.set c fields) = q.get fields
  comm : ∀ c d fields, p.set c (q.set d fields) = q.set d (p.set c fields)

instance {σ : Type} : Std.Symm (@Place.Apart σ) where
  symm _ _ h := ⟨h.right, h.left, fun c d fields => (h.comm d c fields).symm⟩

/-- The form keeps each field in a place of its own, and passes over members of other names. -/
structure RecordForm.HasPlaces {σ α : Type} (form : RecordForm σ α) (places : List (Place σ)) :
    Prop where
  apart : places.Pairwise Place.Apart
  start : ∀ p ∈ places, p.get form.start = none
  known : ∀ p ∈ places, ∀ value fields, form.put p.name value fields =
    (do return p.set (← fill p.name p.decode value (p.get fields)) fields)
  unknown : ∀ name ∉ places.map (·.name), ∀ value fields,
    form.put name value fields = (do skip value; return fields)
  absent : ∀ p ∈ places, ∀ value, p.absent? = some value → ∃ c, p.decode value = .ok c ∧
    ∀ fields, p.get fields = none → form.complete (p.set (some c) fields) = form.complete fields
  array : ∀ values, values.length ≤ places.length →
    (∀ p ∈ places.drop values.length, p.endsArray = true) →
    form.decode (.array values .closed) = form.decode (.object
      (List.zipWith Field.member (places.map Place.toField) values) .closed)

namespace RecordForm

variable {σ α : Type} {form : RecordForm σ α} {places : List (Place σ)}

/-- Reading a member takes the fields to the next ones. -/
def Put (form : RecordForm σ α) (member : Option String × Tree) (fields next : σ) : Prop :=
  ∃ name, member.1 = some name ∧ form.put name member.2 fields = .ok next

theorem putAll_cons_eq_ok_iff {member : Option String × Tree}
    {members : List (Option String × Tree)} {fields after : σ} :
    form.putAll (member :: members) fields = .ok after ↔
      ∃ next, form.Put member fields next ∧ form.putAll members next = .ok after := by
  obtain ⟨name, value⟩ := member
  cases name with
  | none => simp [putAll, Put]
  | some name =>
    rw [putAll, bind_eq_ok_iff]
    simp [Put]

theorem putAll_append_eq_ok_iff {members more : List (Option String × Tree)} {fields after : σ} :
    form.putAll (members ++ more) fields = .ok after ↔
      ∃ next, form.putAll members fields = .ok next ∧ form.putAll more next = .ok after := by
  induction members generalizing fields with
  | nil => simp [putAll]
  | cons member members ih =>
    simp only [List.cons_append, putAll_cons_eq_ok_iff, ih]
    constructor
    · rintro ⟨next, hput, last, hlast, hmore⟩
      exact ⟨last, ⟨next, hput, hlast⟩, hmore⟩
    · rintro ⟨last, ⟨next, hput, hlast⟩, hmore⟩
      exact ⟨next, hput, last, hlast, hmore⟩

theorem decode_object_eq_ok_iff {members : List (Option String × Tree)} {a : α} :
    form.decode (.object members .closed) = .ok a ↔
      ∃ fields, form.putAll members form.start = .ok fields ∧ form.complete fields = .ok a := by
  rw [decode, bind_eq_ok_iff]
  rfl

namespace HasPlaces

variable (h : form.HasPlaces places) {p : Place σ} {name : String} {value : Tree} {fields next : σ}

include h

theorem put_field_iff (hp : p ∈ places) : form.Put (p.member value) fields next ↔
    p.get fields = none ∧ ∃ c, p.decode value = .ok c ∧ next = p.set (some c) fields := by
  have hput : form.Put (p.member value) fields next ↔
      form.put p.name value fields = .ok next := by
    simp [Put, Field.member]
  rw [hput, h.known p hp]
  cases p.get fields with
  | some c => simp [fill, bind, Except.bind]
  | none =>
    rw [fill]
    cases p.decode value <;> simp [bind, Except.bind, pure, Except.pure, eq_comm]

theorem put_unknown_iff (hname : name ∉ places.map (·.name)) :
    form.Put (some name, value) fields next ↔ value.Closed ∧ next = fields := by
  have hput : form.Put (some name, value) fields next ↔
      form.put name value fields = .ok next := by
    simp [Put]
  rw [hput, h.unknown name hname, bind_eq_ok_iff]
  constructor
  · rintro ⟨u, hskip, hnext⟩
    exact ⟨skip_eq_ok_iff.mp hskip, (Except.ok.inj hnext).symm⟩
  · rintro ⟨hclosed, rfl⟩
    exact ⟨(), skip_eq_ok_iff.mpr hclosed, rfl⟩

/-- What a member does: it fills the place of its field, or it is passed over. -/
theorem put_cases {member : Option String × Tree} (hput : form.Put member fields next) :
    (∃ p ∈ places, ∃ value c, member = p.member value ∧ p.get fields = none ∧
      p.decode value = .ok c ∧ next = p.set (some c) fields) ∨
    ∃ name value, name ∉ places.map (·.name) ∧ member = (some name, value) ∧ value.Closed ∧
      next = fields := by
  obtain ⟨name, value⟩ := member
  obtain ⟨name, rfl, -⟩ := id hput
  by_cases hname : name ∈ places.map (·.name)
  · obtain ⟨p, hp, rfl⟩ := List.mem_map.mp hname
    obtain ⟨hget, c, hdecode, hnext⟩ := (h.put_field_iff hp).mp hput
    exact .inl ⟨p, hp, value, c, rfl, hget, hdecode, hnext⟩
  · obtain ⟨hclosed, hnext⟩ := (h.put_unknown_iff hname).mp hput
    exact .inr ⟨name, value, hname, rfl, hclosed, hnext⟩

theorem apart_of_ne {q : Place σ} (hp : p ∈ places) (hq : q ∈ places) (hne : p ≠ q) : p.Apart q :=
  h.apart.forall hp hq hne

/-- Two members that are read one after the other may be read the other way round. -/
theorem put_swap {member other : Option String × Tree} {after : σ}
    (hfirst : form.Put member fields next) (hsecond : form.Put other next after) :
    ∃ next, form.Put other fields next ∧ form.Put member next after := by
  rcases h.put_cases hfirst with ⟨p, hp, value, c, rfl, hget, hdecode, rfl⟩ |
    ⟨name, value, hname, rfl, hclosed, rfl⟩
  · rcases h.put_cases hsecond with ⟨q, hq, value', d, rfl, hget', hdecode', rfl⟩ |
      ⟨name, value', hname, rfl, hclosed, rfl⟩
    · -- A field is not read twice, so the places are apart.
      have hne : p ≠ q := by
        rintro rfl
        rw [p.get_set] at hget'
        cases hget'
      have hapart := h.apart_of_ne hp hq hne
      rw [hapart.right] at hget'
      refine ⟨q.set (some d) fields, (h.put_field_iff hq).mpr ⟨hget', d, hdecode', rfl⟩,
        (h.put_field_iff hp).mpr ⟨?_, c, hdecode, (hapart.comm _ _ _).symm⟩⟩
      rw [hapart.left]
      exact hget
    · exact ⟨fields, (h.put_unknown_iff hname).mpr ⟨hclosed, rfl⟩, hfirst⟩
  · exact ⟨after, hsecond, (h.put_unknown_iff hname).mpr ⟨hclosed, rfl⟩⟩

theorem putAll_perm {members others : List (Option String × Tree)} {after : σ}
    (hperm : members.Perm others) :
    form.putAll members fields = .ok after ↔ form.putAll others fields = .ok after := by
  induction hperm generalizing fields with
  | nil => rfl
  | cons member _ ih =>
    rw [putAll_cons_eq_ok_iff, putAll_cons_eq_ok_iff]
    simp only [ih]
  | swap member other members =>
    simp only [putAll_cons_eq_ok_iff]
    constructor
    · rintro ⟨next, hfirst, last, hsecond, hrest⟩
      obtain ⟨next, hfirst, hsecond⟩ := h.put_swap hfirst hsecond
      exact ⟨next, hfirst, last, hsecond, hrest⟩
    · rintro ⟨next, hfirst, last, hsecond, hrest⟩
      obtain ⟨next, hfirst, hsecond⟩ := h.put_swap hfirst hsecond
      exact ⟨next, hfirst, last, hsecond, hrest⟩
  | trans _ _ ihFirst ihSecond => exact ihFirst.trans ihSecond

/-- A place whose field no member names is as it was. -/
theorem get_putAll (hp : p ∈ places) {members : List (Option String × Tree)} {after : σ}
    (hmembers : some p.name ∉ members.map Prod.fst)
    (hread : form.putAll members fields = .ok after) : p.get after = p.get fields := by
  induction members generalizing fields with
  | nil =>
    cases hread
    rfl
  | cons member members ih =>
    obtain ⟨hmember, hlater⟩ := not_or.mp (List.mem_cons.not.mp hmembers)
    obtain ⟨next, hput, hread⟩ := putAll_cons_eq_ok_iff.mp hread
    rw [ih hlater hread]
    rcases h.put_cases hput with ⟨q, hq, value, c, rfl, -, -, rfl⟩ | ⟨-, -, -, -, -, rfl⟩
    · have hne : p ≠ q := by
        rintro rfl
        exact hmember rfl
      exact (h.apart_of_ne hp hq hne).left _ _
    · rfl

/-- A record is decoded alike before and after a change to how it is written. -/
theorem agree_of_rewrites {tree other : Tree}
    (hrewrites : Rewrites (places.map Place.toField) tree other) :
    Agree form.decode tree other := by
  intro a
  cases hrewrites with
  | reorder hperm =>
    rw [decode_object_eq_ok_iff, decode_object_eq_ok_iff]
    simp only [h.putAll_perm hperm]
  | @unknown members name value hname hvalue =>
    rw [List.map_map] at hname
    simp only [decode_object_eq_ok_iff, putAll_cons_eq_ok_iff, h.put_unknown_iff hname, hvalue,
      true_and, exists_eq_left]
  | @absent members field value hfield hvalue hmembers =>
    obtain ⟨p, hp, rfl⟩ := List.mem_map.mp hfield
    obtain ⟨c, hdecode, hcomplete⟩ := h.absent p hp value hvalue
    -- Read last, the member finds its place empty and leaves the record as it is.
    have hperm : (p.member value :: members).Perm (members ++ [p.member value]) :=
      (List.perm_append_singleton _ _).symm
    simp only [decode_object_eq_ok_iff, h.putAll_perm hperm, putAll_append_eq_ok_iff]
    constructor
    · rintro ⟨fields, hread, hcompletes⟩
      have hget : p.get fields = none := (h.get_putAll hp hmembers hread).trans (h.start p hp)
      have hput : form.Put (p.member value) fields (p.set (some c) fields) :=
        (h.put_field_iff hp).mpr ⟨hget, c, hdecode, rfl⟩
      refine ⟨_, ⟨fields, hread, putAll_cons_eq_ok_iff.mpr ⟨_, hput, rfl⟩⟩, ?_⟩
      rw [hcomplete fields hget]
      exact hcompletes
    · rintro ⟨after, ⟨fields, hread, hlast⟩, hcompletes⟩
      obtain ⟨next, hput, hend⟩ := putAll_cons_eq_ok_iff.mp hlast
      cases hend
      obtain ⟨hget, d, hdecode', rfl⟩ := (h.put_field_iff hp).mp hput
      obtain rfl := Except.ok.inj (hdecode.symm.trans hdecode')
      rw [hcomplete fields hget] at hcompletes
      exact ⟨fields, hread, hcompletes⟩
  | array hlength hends =>
    rw [List.length_map] at hlength
    rw [← List.map_drop, List.forall_mem_map] at hends
    rw [h.array _ hlength hends]
  | @value members field value other hfield halike =>
    obtain ⟨p, hp, rfl⟩ := List.mem_map.mp hfield
    have hdecode := p.alike value other halike
    simp only [decode_object_eq_ok_iff, putAll_cons_eq_ok_iff, h.put_field_iff hp, hdecode _]

/-- A record is decoded alike from every way to write it. -/
theorem agree {tree other : Tree} (hrespelled : Respelled (places.map Place.toField) tree other) :
    Agree form.decode tree other :=
  (Agree.equivalence form.decode).eqvGen_iff.mp
    (hrespelled.mono fun _ _ hrewrites => h.agree_of_rewrites hrewrites)

theorem strict_decode (hitems : Items.Strict form.ofItems) : Strict form.decode := by
  refine RecordForm.strict_decode (fun name value fields next hput => ?_) hitems
  have hmember : form.Put (some name, value) fields next := ⟨name, rfl, hput⟩
  rcases h.put_cases hmember with ⟨p, hp, _, c, heq, -, hdecode, -⟩ | ⟨_, _, -, heq, hclosed, -⟩
  · cases heq
    exact p.strict hdecode
  · cases heq
    exact hclosed

end HasPlaces

end RecordForm

end Headroom.Json
