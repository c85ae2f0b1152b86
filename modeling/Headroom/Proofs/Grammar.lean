import Headroom.Json.Tree
import Headroom.Proofs.Spelling

/-! The texts of a tree. A tree without a flaw is read from every text that it is written as, and a
text that a tree without a flaw is read from is one of those. -/

namespace Headroom.Json

/-! ### Trees without a flaw -/

/-- No part of the tree is broken or cut off. -/
def Tree.Closed (tree : Tree) : Prop := tree.skipFlaw? = none

theorem skipItems_eq_none_iff {items : List Tree} :
    skipItems items = none ↔ ∀ item ∈ items, item.Closed := by
  induction items with
  | nil => simp [skipItems]
  | cons item items ih => simp [skipItems, ih, Tree.Closed]

theorem skipMembers_eq_none_iff {members : List (Option String × Tree)} :
    skipMembers members = none ↔ ∀ member ∈ members, member.2.Closed := by
  induction members with
  | nil => simp [skipMembers]
  | cons member members ih => simp [skipMembers, ih, Tree.Closed]

theorem Ending.skipFlaw?_eq_none_iff {ending : Ending} :
    ending.skipFlaw? = none ↔ ending = .closed := by
  cases ending <;> simp [Ending.skipFlaw?]

namespace Tree

@[simp] theorem closed_array {items : List Tree} {ending : Ending} :
    (array items ending).Closed ↔ (∀ item ∈ items, item.Closed) ∧ ending = .closed := by
  rw [Closed, skipFlaw?, Option.or_eq_none_iff, skipItems_eq_none_iff,
    Ending.skipFlaw?_eq_none_iff]

@[simp] theorem closed_object {members : List (Option String × Tree)} {ending : Ending} :
    (object members ending).Closed ↔ (∀ member ∈ members, member.2.Closed) ∧ ending = .closed := by
  rw [Closed, skipFlaw?, Option.or_eq_none_iff, skipMembers_eq_none_iff,
    Ending.skipFlaw?_eq_none_iff]

theorem not_closed_broken (r s : Flaw) : ¬ (broken r s).Closed := by
  simp [Closed, skipFlaw?]

end Tree

/-! ### Their tokens -/

mutual

/-- The tokens of a tree without a flaw. -/
def Tree.tokens : Tree → List Token
  | .null => [.null]
  | .bool b => [.bool b]
  | .number n => [.number n]
  | .string s => [.string s]
  | .array items _ => .beginArray :: (tokensOfItems items ++ [.endArray])
  | .object members _ => .beginObject :: (tokensOfMembers members ++ [.endObject])
  | .broken r s => [.broken r s]

def tokensOfItems : List Tree → List Token
  | [] => []
  | [item] => item.tokens
  | item :: rest => item.tokens ++ .comma :: tokensOfItems rest

def tokensOfMembers : List (Option String × Tree) → List Token
  | [] => []
  | [(name, value)] => .string name :: .colon :: value.tokens
  | (name, value) :: rest =>
    .string name :: .colon :: (value.tokens ++ .comma :: tokensOfMembers rest)

end

/-- The text of a tree, with white space around each of its tokens. -/
def Tree.Spelled (tree : Tree) (text : List Char) : Prop := tree.Closed ∧ Spaced tree.tokens text

mutual

theorem Tree.readable_tokens : ∀ tree : Tree, tree.Closed → Readable tree.tokens
  | .null, _ | .bool _, _ | .number _, _ | .string _, _ => .singleton rfl
  | .broken r s, h => absurd h (Tree.not_closed_broken r s)
  | .array items _, h =>
    .cons rfl rfl ((readable_tokensOfItems items (Tree.closed_array.mp h).1).append_cons rfl
      (.singleton rfl))
  | .object members _, h =>
    .cons rfl rfl ((readable_tokensOfMembers members (Tree.closed_object.mp h).1).append_cons rfl
      (.singleton rfl))

theorem readable_tokensOfItems :
    ∀ items : List Tree, (∀ item ∈ items, item.Closed) → Readable (tokensOfItems items)
  | [], _ => ⟨by simp [tokensOfItems], .nil⟩
  | [item], h => item.readable_tokens (h item List.mem_cons_self)
  | item :: next :: items, h => by
    obtain ⟨hitem, hrest⟩ := List.forall_mem_cons.mp h
    exact (item.readable_tokens hitem).append_cons rfl
      (.cons rfl rfl (readable_tokensOfItems (next :: items) hrest))

theorem readable_tokensOfMembers :
    ∀ members : List (Option String × Tree), (∀ member ∈ members, member.2.Closed) →
      Readable (tokensOfMembers members)
  | [], _ => ⟨by simp [tokensOfMembers], .nil⟩
  | [(_, value)], h =>
    .cons rfl rfl (.cons rfl rfl (value.readable_tokens (h _ List.mem_cons_self)))
  | (_, value) :: next :: members, h => by
    obtain ⟨hvalue, hrest⟩ := List.forall_mem_cons.mp h
    exact .cons rfl rfl (.cons rfl rfl ((value.readable_tokens hvalue).append_cons rfl
      (.cons rfl rfl (readable_tokensOfMembers (next :: members) hrest))))

end

/-! ### From the tokens to the tree -/

theorem Tree.tokens_ne_endArray (tree : Tree) (more rest : List Token) :
    tree.tokens ++ more ≠ .endArray :: rest := by
  cases tree <;> simp [Tree.tokens]

theorem tokensOfItems_ne_endArray (item : Tree) (items : List Tree) (more rest : List Token) :
    tokensOfItems (item :: items) ++ more ≠ .endArray :: rest := by
  cases items with
  | nil => exact item.tokens_ne_endArray more rest
  | cons next items =>
    rw [tokensOfItems, List.append_assoc]
    · exact item.tokens_ne_endArray _ rest
    · simp

theorem tokensOfMembers_ne_endObject (member : Option String × Tree)
    (members : List (Option String × Tree)) (more rest : List Token) :
    tokensOfMembers (member :: members) ++ more ≠ .endObject :: rest := by
  cases members <;> simp [tokensOfMembers]

-- Two steps for each token are enough: a part of a list takes one step more than its own tokens
-- give, and the comma or the bracket before it gives two.
mutual

theorem Tree.take_tokens (size : Nat) (more : List Token) :
    ∀ tree : Tree, tree.Closed → 2 * tree.tokens.length ≤ size →
      Tree.take size (tree.tokens ++ more) = (tree, more)
  | .null, _, _ | .bool _, _, _ | .number _, _, _ | .string _, _, _ => by
    simp only [Tree.tokens, List.singleton_append, Tree.take]
  | .broken r s, hclosed, _ => absurd hclosed (Tree.not_closed_broken r s)
  | .array [] ending, hclosed, _ => by
    obtain ⟨-, rfl⟩ := Tree.closed_array.mp hclosed
    simp only [Tree.tokens, tokensOfItems, List.nil_append, List.cons_append, Tree.take]
  | .object [] ending, hclosed, _ => by
    obtain ⟨-, rfl⟩ := Tree.closed_object.mp hclosed
    simp only [Tree.tokens, tokensOfMembers, List.nil_append, List.cons_append, Tree.take]
  | .array (item :: items) ending, hclosed, h => by
    obtain ⟨hall, rfl⟩ := Tree.closed_array.mp hclosed
    simp only [Tree.tokens, List.length_cons, List.length_append, List.length_nil] at h
    obtain ⟨left, rfl⟩ := Nat.exists_eq_add_one_of_ne_zero (show size ≠ 0 by omega)
    have hitems := takeItems_tokens left more (item :: items) (by simp) hall (by omega)
    simp only [Tree.tokens, List.cons_append, List.append_assoc, List.nil_append]
    rw [Tree.take, hitems]
    exact fun rest heq => tokensOfItems_ne_endArray item items _ rest heq
  | .object (member :: members) ending, hclosed, h => by
    obtain ⟨hall, rfl⟩ := Tree.closed_object.mp hclosed
    simp only [Tree.tokens, List.length_cons, List.length_append, List.length_nil] at h
    obtain ⟨left, rfl⟩ := Nat.exists_eq_add_one_of_ne_zero (show size ≠ 0 by omega)
    have hmembers := takeMembers_tokens left more (member :: members) (by simp) hall (by omega)
    simp only [Tree.tokens, List.cons_append, List.append_assoc, List.nil_append]
    rw [Tree.take, hmembers]
    exact fun rest heq => tokensOfMembers_ne_endObject member members _ rest heq

theorem takeItems_tokens (size : Nat) (more : List Token) :
    ∀ items : List Tree, items ≠ [] → (∀ item ∈ items, item.Closed) →
      2 * (tokensOfItems items).length + 1 ≤ size →
      takeItems size (tokensOfItems items ++ .endArray :: more) = (items, .closed, more)
  | [], hne, _, _ => absurd rfl hne
  | [item], _, hall, h => by
    obtain ⟨left, rfl⟩ := Nat.exists_eq_add_one_of_ne_zero (show size ≠ 0 by omega)
    have hitem := item.take_tokens left (.endArray :: more) (hall item List.mem_cons_self)
      (by simp only [tokensOfItems] at h; omega)
    rw [takeItems, tokensOfItems, hitem]
  | item :: next :: items, _, hall, h => by
    simp only [tokensOfItems, List.length_append, List.length_cons] at h
    obtain ⟨left, rfl⟩ := Nat.exists_eq_add_one_of_ne_zero (show size ≠ 0 by omega)
    obtain ⟨hclosed, hlater⟩ := List.forall_mem_cons.mp hall
    have hitem := item.take_tokens left
      (.comma :: (tokensOfItems (next :: items) ++ .endArray :: more)) hclosed (by omega)
    have hrest := takeItems_tokens left more (next :: items) (by simp) hlater (by omega)
    simp only [takeItems, tokensOfItems, List.append_assoc, List.cons_append]
    rw [hitem]
    dsimp only
    rw [hrest]

theorem takeMembers_tokens (size : Nat) (more : List Token) :
    ∀ members : List (Option String × Tree), members ≠ [] →
      (∀ member ∈ members, member.2.Closed) → 2 * (tokensOfMembers members).length + 1 ≤ size →
      takeMembers size (tokensOfMembers members ++ .endObject :: more) = (members, .closed, more)
  | [], hne, _, _ => absurd rfl hne
  | [(name, value)], _, hall, h => by
    simp only [tokensOfMembers, List.length_cons] at h
    obtain ⟨left, rfl⟩ := Nat.exists_eq_add_one_of_ne_zero (show size ≠ 0 by omega)
    have hvalue := value.take_tokens left (.endObject :: more) (hall _ List.mem_cons_self)
      (by omega)
    rw [tokensOfMembers, List.cons_append, List.cons_append, takeMembers, hvalue]
  | (name, value) :: next :: members, _, hall, h => by
    simp only [tokensOfMembers, List.length_append, List.length_cons] at h
    obtain ⟨left, rfl⟩ := Nat.exists_eq_add_one_of_ne_zero (show size ≠ 0 by omega)
    obtain ⟨hclosed, hlater⟩ := List.forall_mem_cons.mp hall
    have hvalue := value.take_tokens left
      (.comma :: (tokensOfMembers (next :: members) ++ .endObject :: more)) hclosed (by omega)
    have hrest := takeMembers_tokens left more (next :: members) (by simp) hlater (by omega)
    simp only [takeMembers, tokensOfMembers, List.append_assoc, List.cons_append]
    rw [hvalue]
    dsimp only
    rw [hrest]

end

/-! ### From the tree to the tokens -/

theorem Ending.unexpected_ne_closed (ts : List Token) : Ending.unexpected ts ≠ .closed := by
  cases ts <;> simp [Ending.unexpected]

theorem Tree.not_closed_unexpected (ts : List Token) : ¬ (Tree.unexpected ts).Closed := by
  cases ts <;> exact Tree.not_closed_broken _ _

theorem tokensOfItems_cons (item : Tree) {items : List Tree} (h : items ≠ []) :
    tokensOfItems (item :: items) = item.tokens ++ .comma :: tokensOfItems items := by
  obtain ⟨next, items, rfl⟩ := List.exists_cons_of_ne_nil h
  rfl

theorem tokensOfMembers_cons (name : Option String) (value : Tree)
    {members : List (Option String × Tree)} (h : members ≠ []) :
    tokensOfMembers ((name, value) :: members) =
      .string name :: .colon :: (value.tokens ++ .comma :: tokensOfMembers members) := by
  obtain ⟨next, members, rfl⟩ := List.exists_cons_of_ne_nil h
  rfl

mutual

/-- What is taken without a flaw stands at the front of the tokens. -/
theorem Tree.of_take {size : Nat} {ts rest : List Token} {tree : Tree}
    (h : Tree.take size ts = (tree, rest)) (hclosed : tree.Closed) : ts = tree.tokens ++ rest := by
  unfold Tree.take at h
  split at h
  case h_9 _ _ left more _ =>
    cases h
    obtain ⟨hall, hending⟩ := Tree.closed_array.mp hclosed
    obtain ⟨-, heq⟩ := of_takeItems (Prod.ext rfl (Prod.ext hending rfl)) hall
    simp [Tree.tokens, ← heq]
  case h_10 _ _ left more _ =>
    cases h
    obtain ⟨hall, hending⟩ := Tree.closed_object.mp hclosed
    obtain ⟨-, heq⟩ := of_takeMembers (Prod.ext rfl (Prod.ext hending rfl)) hall
    simp [Tree.tokens, ← heq]
  case h_11 =>
    cases h
    exact absurd hclosed (Tree.not_closed_unexpected _)
  case h_5 | h_6 =>
    cases h
    exact absurd hclosed (Tree.not_closed_broken _ _)
  all_goals
    cases h
    rfl
termination_by size

theorem of_takeItems {size : Nat} {ts rest : List Token} {items : List Tree}
    (h : takeItems size ts = (items, .closed, rest)) (hclosed : ∀ item ∈ items, item.Closed) :
    items ≠ [] ∧ ts = tokensOfItems items ++ .endArray :: rest := by
  cases size with
  | zero => exact absurd (congrArg (·.2.1) h) (Ending.unexpected_ne_closed ts)
  | succ left =>
    rw [takeItems] at h
    generalize hitem : Tree.take left ts = taken at h
    obtain ⟨item, more⟩ := taken
    dsimp only at h
    split at h
    · cases h
      obtain rfl := Tree.of_take hitem (hclosed item List.mem_cons_self)
      exact ⟨List.cons_ne_nil _ _, rfl⟩
    · rename_i more
      obtain ⟨rfl, hending⟩ := Prod.mk.inj h
      obtain ⟨hfirst, hlater⟩ := List.forall_mem_cons.mp hclosed
      obtain ⟨hne, heq⟩ := of_takeItems (Prod.ext rfl hending) hlater
      obtain rfl := Tree.of_take hitem hfirst
      refine ⟨List.cons_ne_nil _ _, ?_⟩
      rw [tokensOfItems_cons item hne, List.append_assoc, List.cons_append, ← heq]
    · exact absurd (congrArg (·.2.1) h) (Ending.unexpected_ne_closed _)
termination_by size

theorem of_takeMembers {size : Nat} {ts rest : List Token}
    {members : List (Option String × Tree)} (h : takeMembers size ts = (members, .closed, rest))
    (hclosed : ∀ member ∈ members, member.2.Closed) :
    members ≠ [] ∧ ts = tokensOfMembers members ++ .endObject :: rest := by
  unfold takeMembers at h
  split at h
  case h_1 _ _ left name ts =>
    generalize hvalue : Tree.take left ts = taken at h
    obtain ⟨value, more⟩ := taken
    dsimp only at h
    split at h
    · cases h
      obtain rfl := Tree.of_take hvalue (hclosed (name, value) List.mem_cons_self)
      exact ⟨List.cons_ne_nil _ _, rfl⟩
    · rename_i more
      obtain ⟨rfl, hending⟩ := Prod.mk.inj h
      obtain ⟨hfirst, hlater⟩ := List.forall_mem_cons.mp hclosed
      obtain ⟨hne, heq⟩ := of_takeMembers (Prod.ext rfl hending) hlater
      obtain rfl := Tree.of_take hvalue hfirst
      refine ⟨List.cons_ne_nil _ _, ?_⟩
      rw [tokensOfMembers_cons name value hne, List.cons_append, List.cons_append,
        List.append_assoc, List.cons_append, ← heq]
    · exact absurd (congrArg (·.2.1) h) (Ending.unexpected_ne_closed _)
  case h_3 => cases h
  all_goals exact absurd (congrArg (·.2.1) h) (Ending.unexpected_ne_closed _)
termination_by size

end

theorem Tree.ofText_eq_iff {tree : Tree} {text : List Char} :
    Tree.ofText text = (tree, []) ∧ tree.Closed ↔ tree.Spelled text := by
  constructor
  · rintro ⟨htext, hclosed⟩
    have htokens := Tree.of_take htext hclosed
    rw [List.append_nil] at htokens
    exact ⟨hclosed, (tree.readable_tokens hclosed).tokens_eq_iff.mp htokens⟩
  · rintro ⟨hclosed, htext⟩
    have htokens := (tree.readable_tokens hclosed).tokens_eq_iff.mpr htext
    have htake := tree.take_tokens (2 * tree.tokens.length + 1) [] hclosed (by omega)
    rw [List.append_nil] at htake
    exact ⟨by rw [Tree.ofText, htokens, htake], hclosed⟩

end Headroom.Json
