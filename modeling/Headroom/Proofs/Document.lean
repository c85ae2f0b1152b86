import Headroom.Json.Value
import Headroom.Proofs.Strict

/-! The written text of a value, in one line or over several, is a text of its tree, so it is read
back as that. -/

namespace Headroom.Json

mutual

def Value.tree : Value → Tree
  | .null => .null
  | .bool b => .bool b
  | .number n => .number (Literal.ofInt n).number?
  | .string s => .string (some s)
  | .array items => .array (itemTrees items) .closed
  | .object members => .object (memberTrees members) .closed

def itemTrees : List Value → List Tree
  | [] => []
  | item :: rest => item.tree :: itemTrees rest

def memberTrees : List (String × Value) → List (Option String × Tree)
  | [] => []
  | (name, value) :: rest => (some name, value.tree) :: memberTrees rest

end

theorem itemTrees_eq_map (items : List Value) : itemTrees items = items.map Value.tree := by
  induction items with
  | nil => rfl
  | cons item rest ih => rw [itemTrees, ih, List.map_cons]

theorem memberTrees_eq_map (members : List (String × Value)) :
    memberTrees members = members.map fun (name, value) => (some name, value.tree) := by
  induction members with
  | nil => rfl
  | cons member rest ih => rw [memberTrees, ih, List.map_cons]

mutual

theorem Value.closed_tree : ∀ value : Value, value.tree.Closed
  | .null | .bool _ | .number _ | .string _ => rfl
  | .array items => Tree.closed_array.mpr ⟨closed_itemTrees items, rfl⟩
  | .object members => Tree.closed_object.mpr ⟨closed_memberTrees members, rfl⟩

theorem closed_itemTrees : ∀ items : List Value, ∀ item ∈ itemTrees items, item.Closed
  | [] => by simp [itemTrees]
  | item :: rest => List.forall_mem_cons.mpr ⟨item.closed_tree, closed_itemTrees rest⟩

theorem closed_memberTrees :
    ∀ members : List (String × Value), ∀ member ∈ memberTrees members, member.2.Closed
  | [] => by simp [memberTrees]
  | (_, value) :: rest => List.forall_mem_cons.mpr ⟨value.closed_tree, closed_memberTrees rest⟩

end

/-! ### From the value to its text -/

theorem Token.Spelled.spaced {token : Token} {text : List Char} (h : token.Spelled text) :
    Spaced [token] text := by
  simpa using Spaced.token h .nil

theorem spaced_quote (s : String) : Spaced [.string (some s)] (quote s) := by
  have hquote := Token.Spelled.string (stringText_escape s.toList)
  rw [textOf?_quote] at hquote
  exact hquote.spaced

theorem spaced_lineBreak (level : Option Nat) : Spaced [] (lineBreak level) := by
  refine .of_isSpace fun c hc => ?_
  cases level with
  | none => cases hc
  | some level =>
    rcases List.mem_cons.mp hc with rfl | hc
    · rfl
    · rw [List.eq_of_mem_replicate hc]
      rfl

theorem spaced_memberColon (level : Option Nat) : Spaced [.colon] (memberColon level) := by
  cases level with
  | none => exact Token.Spelled.colon.spaced
  | some level => exact .token .colon (.space rfl .nil)

/-- The close of an array or of an object, after the break before it. -/
theorem spaced_close (level : Option Nat) {token : Token} {text : List Char}
    (h : token.Spelled text) : Spaced [token] (lineBreak level ++ text) :=
  (spaced_lineBreak level).append h.spaced

/-- A member, where the text of its value is known. -/
theorem spaced_member (level : Option Nat) (name : String) {ts : List Token} {text : List Char}
    (h : Spaced ts text) : Spaced (.string (some name) :: .colon :: ts)
      (lineBreak level ++ quote name ++ memberColon level ++ text) :=
  (((spaced_lineBreak level).append (spaced_quote name)).append (spaced_memberColon level)).append h

mutual

theorem Value.spaced_render (level : Option Nat) :
    ∀ value : Value, Spaced value.tree.tokens (value.render level)
  | .null => Token.Spelled.null.spaced
  | .bool true => Token.Spelled.boolTrue.spaced
  | .bool false => Token.Spelled.boolFalse.spaced
  | .number n => (Token.Spelled.number (Literal.spelled_ofInt n)).spaced
  | .string s => spaced_quote s
  | .array [] => .token .beginArray Token.Spelled.endArray.spaced
  | .object [] => .token .beginObject Token.Spelled.endObject.spaced
  | .array (item :: items) => by
    have hitems := spaced_renderItems (level.map (· + 1)) (item :: items)
    have htext := Spaced.token .beginArray (hitems.append (spaced_close level .endArray))
    rwa [← List.append_assoc, ← List.append_assoc] at htext
  | .object (member :: members) => by
    have hmembers := spaced_renderMembers (level.map (· + 1)) (member :: members)
    have htext := Spaced.token .beginObject (hmembers.append (spaced_close level .endObject))
    rwa [← List.append_assoc, ← List.append_assoc] at htext

theorem spaced_renderItems (level : Option Nat) :
    ∀ items : List Value, Spaced (tokensOfItems (itemTrees items)) (renderItems level items)
  | [] => .nil
  | [item] => (spaced_lineBreak level).append (item.spaced_render level)
  | item :: next :: items =>
    ((spaced_lineBreak level).append (item.spaced_render level)).append
      (.token .comma (spaced_renderItems level (next :: items)))

theorem spaced_renderMembers (level : Option Nat) :
    ∀ members : List (String × Value),
      Spaced (tokensOfMembers (memberTrees members)) (renderMembers level members)
  | [] => .nil
  | [(name, value)] => spaced_member level name (value.spaced_render level)
  | (name, value) :: next :: members =>
    (spaced_member level name (value.spaced_render level)).append
      (.token .comma (spaced_renderMembers level (next :: members)))

end

theorem Value.spelled_render (level : Option Nat) (value : Value) :
    value.tree.Spelled (String.ofList (value.render level)).toList := by
  rw [String.toList_ofList]
  exact ⟨value.closed_tree, value.spaced_render level⟩

/-! ### From the text to a typed value -/

/-- The decoder gives `a` for a value. -/
def Decodes {α : Type} (decode : Decoder α) (value : Value) (a : α) : Prop :=
  decode value.tree = .ok a

section Decodes

variable {α : Type} {decode : Decoder α} {value : Value} {a : α}

/-- What a value decodes to is what its text decodes to. -/
theorem Decodes.text (h : Decodes decode value a) (level : Option Nat) :
    decodeText decode (.ofList (value.render level)) = .ok a :=
  (decodeText_of_spelled decode (value.spelled_render level)).trans h

theorem Decodes.fill (h : Decodes decode value a) (name : String) :
    Json.fill name decode value.tree none = .ok (some a) := by
  rw [Decodes] at h
  rw [Json.fill, h]
  rfl

theorem Decodes.optional (h : Decodes decode value a) (hvalue : value ≠ .null) :
    Decodes (Decode.optional decode) value (some a) := by
  have hread : Decode.optional decode value.tree = (return some (← decode value.tree)) := by
    cases value with
    | null => exact absurd rfl hvalue
    | _ => rfl
  rw [Decodes] at h ⊢
  rw [hread, h]
  rfl

theorem Decodes.list {as : List α} {values : List Value}
    (h : List.Forall₂ (fun a value => Decodes decode value a) as values) :
    Decodes (Decode.list decode) (.array values) as := by
  have hitems : (itemTrees values).mapM decode = .ok as := by
    refine mapM_eq_ok_iff_forall₂.mpr ?_
    rw [itemTrees_eq_map, List.forall₂_map_left_iff]
    exact h.flip
  rw [Decodes, Value.tree, Decode.list, hitems]
  rfl

theorem decodes_string (s : String) : Decodes Decode.string (.string s) s := rfl

theorem decodes_bool (b : Bool) : Decodes Decode.bool (.bool b) b := rfl

theorem decodes_word (n : UInt64) : Decodes Decode.word (.number n.toNat) n := by
  rw [Decodes, Value.tree, Literal.number?_ofNat]
  rfl

end Decodes

end Headroom.Json
