import Headroom.Proofs.Resizing

/-! The search for a free name as it runs, name by name, with a counter that is an unsigned word.
The search has no bound of its own. It ends since different numbers have different names and a store
has only so many, and it ends before its counter runs over. -/

namespace Headroom.Scaling

open Cluster (NodeRecord Store)

/-- The number after `n` in an unsigned word, or a fault when it leaves the word. -/
def nextNumber (n : Nat) : Except Fault Nat :=
  if n + 1 < 2 ^ 64 then .ok (n + 1) else .error .addition

theorem nextNumber_of_lt {n : Nat} (h : n + 1 < 2 ^ 64) : nextNumber n = .ok (n + 1) := if_pos h

namespace NodeShape

/-- A search that begins at a number: the names that it probes, in their order, and what it ends
with. While a name is taken the search goes on with the next number. A free name is handed over
together with the number after its own. -/
inductive Search (shape : NodeShape) (store : Store) :
    Nat → List String → Except Fault (String × Nat) → Prop where
  | free {n : Nat} (hfree : store.node? (shape.name n) = none) :
    Search shape store n [shape.name n] ((nextNumber n).map fun next => (shape.name n, next))
  | taken {n next : Nat} {probed : List String} {outcome : Except Fault (String × Nat)}
    (htaken : (store.node? (shape.name n)).isSome) (hnext : nextNumber n = .ok next)
    (hrest : Search shape store next probed outcome) :
    Search shape store n (shape.name n :: probed) outcome
  | stopped {n : Nat} {fault : Fault} (htaken : (store.node? (shape.name n)).isSome)
    (hnext : nextNumber n = .error fault) : Search shape store n [shape.name n] (.error fault)

/-- A search that a growth has made: where it began, the store that it searched, and the names that
it probed. -/
structure Probing where
  start : Nat
  store : Store
  probed : List String

/-- A growth by so many nodes that begins its first search at a number: its searches, in their
order, and the store that it leaves unless a fault stops it. -/
inductive Grows (shape : NodeShape) :
    Nat → Nat → Store → List Probing → Except Fault Store → Prop where
  | done {n : Nat} {store : Store} : Grows shape 0 n store [] (.ok store)
  | added {count n next : Nat} {store : Store} {name : String} {probed : List String}
    {searches : List Probing} {outcome : Except Fault Store}
    (hsearch : shape.Search store n probed (.ok (name, next)))
    (hrest : Grows shape count next
      (store.putNode { id := name, capacity := some shape.capacity }) searches outcome) :
    Grows shape (count + 1) n store (⟨n, store, probed⟩ :: searches) outcome
  | stopped {count n : Nat} {store : Store} {fault : Fault} {probed : List String}
    (hsearch : shape.Search store n probed (.error fault)) :
    Grows shape (count + 1) n store [⟨n, store, probed⟩] (.error fault)

variable {shape : NodeShape} {store : Store} {n : Nat}

/-! ### One search -/

section Search

variable {probed : List String} {outcome : Except Fault (String × Nat)}

theorem search_of_free (hfree : store.node? (shape.name n) = none) (hword : n + 1 < 2 ^ 64) :
    shape.Search store n probed outcome ↔
      probed = [shape.name n] ∧ outcome = .ok (shape.name n, n + 1) := by
  constructor
  · rintro (- | ⟨htaken, -, -⟩ | ⟨htaken, -⟩)
    · rw [nextNumber_of_lt hword]
      exact ⟨rfl, rfl⟩
    · simp [hfree] at htaken
    · simp [hfree] at htaken
  · rintro ⟨rfl, rfl⟩
    have hends := Search.free hfree
    rwa [nextNumber_of_lt hword] at hends

theorem search_of_taken (htaken : (store.node? (shape.name n)).isSome) (hword : n + 1 < 2 ^ 64) :
    shape.Search store n probed outcome ↔
      ∃ later, probed = shape.name n :: later ∧ shape.Search store (n + 1) later outcome := by
  constructor
  · rintro (hfree | ⟨-, hnext, hrest⟩ | ⟨-, hnext⟩)
    · simp [hfree] at htaken
    · rw [nextNumber_of_lt hword] at hnext
      obtain rfl := Except.ok.inj hnext
      exact ⟨_, rfl, hrest⟩
    · rw [nextNumber_of_lt hword] at hnext
      exact nomatch hnext
  · rintro ⟨later, rfl, hrest⟩
    exact .taken htaken (nextNumber_of_lt hword) hrest

/-- A search goes through the names of all numbers up to the first free one. -/
theorem search_iff_of_first {k : Nat} (hle : n ≤ k) (hword : k + 1 < 2 ^ 64)
    (htaken : ∀ j, n ≤ j → j < k → store.nodes.contains (shape.name j) = true)
    (hfree : store.nodes.contains (shape.name k) = false) :
    shape.Search store n probed outcome ↔
      probed = (List.range' n (k + 1 - n)).map shape.name ∧
        outcome = .ok (shape.name k, k + 1) := by
  obtain ⟨gap, rfl⟩ := Nat.exists_eq_add_of_le hle
  -- The induction is on how far the free number is; the names up to it move to the front.
  induction gap generalizing n probed with
  | zero =>
    rw [Nat.add_zero] at hword hfree ⊢
    rw [search_of_free (Option.not_isSome_iff_eq_none.mp (Bool.eq_false_iff.mp hfree)) hword,
      Nat.add_sub_cancel_left]
    rfl
  | succ gap ih =>
    have hshift : n + (gap + 1) = n + 1 + gap := by omega
    have hlength : n + 1 + gap + 1 - n = n + 1 + gap + 1 - (n + 1) + 1 := by omega
    rw [hshift] at hword htaken hfree ⊢
    rw [search_of_taken (htaken n le_rfl (by omega)) (by omega), hlength, List.range'_succ,
      List.map_cons]
    have hlater : ∀ {later : List String}, shape.Search store (n + 1) later outcome ↔ _ :=
      ih (by omega) hword (fun j hj hlt => htaken j (by omega) hlt) hfree
    simp only [hlater]
    constructor
    · rintro ⟨later, rfl, rfl, rfl⟩
      exact ⟨rfl, rfl⟩
    · rintro ⟨rfl, rfl⟩
      exact ⟨_, rfl, rfl, rfl⟩

theorem search_iff (hword : shape.freeNumber store n + 1 < 2 ^ 64) :
    shape.Search store n probed outcome ↔
      probed = (List.range' n (shape.freeNumber store n + 1 - n)).map shape.name ∧
        outcome = .ok (shape.name (shape.freeNumber store n), shape.freeNumber store n + 1) := by
  obtain ⟨hle, -, htaken, hfree⟩ := shape.freeNumber_spec store n
  exact search_iff_of_first hle hword htaken hfree

end Search

/-! ### All searches of a growth -/

/-- The searches of a growth that no fault stops. -/
def probings (shape : NodeShape) : Nat → Nat → Store → List Probing
  | 0, _, _ => []
  | count + 1, n, store =>
    let free := shape.freeNumber store n
    ⟨n, store, (List.range' n (free + 1 - n)).map shape.name⟩ ::
      shape.probings count (free + 1) (store.putNode (shape.node free))

/-- Each search of a growth finds one of the new numbers. -/
theorem mem_newNumbers_of_mem_probings {count : Nat} {search : Probing}
    (h : search ∈ shape.probings count n store) :
    shape.freeNumber search.store search.start ∈ shape.newNumbers count n store ∧
      search.probed = (List.range' search.start
        (shape.freeNumber search.store search.start + 1 - search.start)).map shape.name := by
  induction count generalizing n store with
  | zero => exact nomatch h
  | succ count ih =>
    rcases List.mem_cons.mp h with rfl | hlater
    · exact ⟨List.mem_cons_self, rfl⟩
    · obtain ⟨hnumber, hprobed⟩ := ih hlater
      exact ⟨List.mem_cons_of_mem _ hnumber, hprobed⟩

theorem grows_iff {count : Nat} {searches : List Probing} {outcome : Except Fault Store}
    (hword : ∀ k ∈ shape.newNumbers count n store, k + 1 < 2 ^ 64) :
    shape.Grows count n store searches outcome ↔
      searches = shape.probings count n store ∧ outcome = .ok (shape.addNodes count n store) := by
  induction count generalizing n store searches with
  | zero =>
    constructor
    · rintro ⟨⟩
      exact ⟨rfl, rfl⟩
    · rintro ⟨rfl, rfl⟩
      exact .done
  | succ count ih =>
    rw [newNumbers, List.forall_mem_cons] at hword
    obtain ⟨hfirst, hlater⟩ := hword
    constructor
    · intro h
      cases h with
      | added hsearch hrest =>
        obtain ⟨rfl, houtcome⟩ := (search_iff hfirst).mp hsearch
        obtain ⟨rfl, rfl⟩ := Prod.mk.inj (Except.ok.inj houtcome)
        obtain ⟨rfl, rfl⟩ := (ih hlater).mp hrest
        exact ⟨rfl, rfl⟩
      | stopped hsearch =>
        obtain ⟨-, hfault⟩ := (search_iff hfirst).mp hsearch
        cases hfault
    · rintro ⟨rfl, rfl⟩
      exact .added ((search_iff hfirst).mpr ⟨rfl, rfl⟩) ((ih hlater).mpr ⟨rfl, rfl⟩)

/-- A growth to a size hands out numbers that fit a word, and so do the numbers after them. -/
theorem number_lt {size k : Nat} (hrange : store.nodes.size + size < 2 ^ 64)
    (hk : k ∈ shape.newNumbers (size - store.nodes.size) store.nodes.size store) :
    k + 1 < 2 ^ 64 := by
  have hlt := (shape.growth_addNodes _ _ store).lt_add_size hk
  have hgrows := List.length_pos_of_mem hk
  rw [size_addNodes] at hlt
  rw [length_newNumbers] at hgrows
  omega

/-- Let a pool grow to a size, with counters that are unsigned words. It makes the same searches
however it runs, and leaves the store that the growth is said to leave; no fault stops it. Each
search has one course. It probes the names of the numbers from its first on, in their order, and
ends at the first that no node has, which it returns together with the number after it. It probes at
most one name more than the store that it searches has nodes, and both numbers fit a word. -/
theorem name_search_ends (shape : NodeShape) (store : Store) (size : Nat)
    (hrange : store.nodes.size + size < 2 ^ 64) :
    ∃ searches : List Probing,
      (∀ others outcome,
        shape.Grows (size - store.nodes.size) store.nodes.size store others outcome ↔
          others = searches ∧ outcome = .ok (shape.increaseToSize size store)) ∧
      ∀ search ∈ searches, ∃ k,
        (∀ probed outcome, shape.Search search.store search.start probed outcome ↔
          probed = search.probed ∧
            outcome = .ok (shape.stem ++ "-" ++ toString k, k + 1)) ∧
        search.probed = (List.range' search.start (k + 1 - search.start)).map
          (fun j => shape.stem ++ "-" ++ toString j) ∧
        search.probed.length ≤ search.store.nodes.size + 1 ∧
        IsLeast {j | search.start ≤ j ∧
          search.store.node? (shape.stem ++ "-" ++ toString j) = none} k ∧
        k + 1 < 2 ^ 64 := by
  refine ⟨_, fun others outcome => grows_iff fun k => number_lt hrange, fun search hsearch => ?_⟩
  obtain ⟨hnumber, hprobed⟩ := mem_newNumbers_of_mem_probings hsearch
  obtain ⟨hle, hbound, htaken, hfree⟩ := shape.freeNumber_spec search.store search.start
  have hword := number_lt hrange hnumber
  refine ⟨_, fun probed outcome => ?_, hprobed, ?_, ⟨⟨hle, ?_⟩, fun j hj => ?_⟩, hword⟩
  · rw [hprobed]
    exact search_iff hword
  · rw [hprobed, List.length_map, List.length_range']
    omega
  · exact Option.not_isSome_iff_eq_none.mp (Bool.eq_false_iff.mp hfree)
  · by_contra hlt
    have hsome : (search.store.node? (shape.name j)).isSome = true :=
      htaken j hj.1 (Nat.lt_of_not_le hlt)
    rw [show search.store.node? (shape.name j) = none from hj.2] at hsome
    cases hsome

/-- The second of the three searches passes over the name that is taken. -/
theorem name_search_ends_rack :
    let rack : NodeShape := { stem := "rack-7" }
    rackStore.nodes.size + 5 < 2 ^ 64 ∧
    ∃ searches, rack.Grows 3 2 rackStore searches (.ok (rack.increaseToSize 5 rackStore)) ∧
      searches.map (·.probed) = [["rack-7-2"], ["rack-7-3", "rack-7-4"], ["rack-7-5"]] ∧
      ∀ search ∈ searches, search.probed.length ≤ search.store.nodes.size + 1 := by
  intro rack
  have hrange : rackStore.nodes.size + 5 < 2 ^ 64 := by decide
  obtain ⟨searches, hruns, hsearches⟩ := name_search_ends rack rackStore 5 hrange
  have hgrows : rack.Grows 3 2 rackStore searches (.ok (rack.increaseToSize 5 rackStore)) :=
    (hruns searches _).mpr ⟨rfl, rfl⟩
  obtain ⟨rfl, -⟩ := (grows_iff fun k => number_lt hrange).mp hgrows
  refine ⟨hrange, _, hgrows, by decide +kernel, fun search hsearch => ?_⟩
  obtain ⟨k, -, -, hbound, -⟩ := hsearches search hsearch
  exact hbound

end NodeShape

end Headroom.Scaling
