import Headroom.Proofs.Store

/-! Adding nodes to a pool. The search for a free name always ends at one, since a store has fewer
names than the search may probe; a pool therefore grows by exactly the nodes asked for. -/

namespace Headroom.Scaling

open Cluster (NodeRecord Store)

/-- The search passes over taken numbers only, and stops at a free one if it has steps left. -/
theorem firstFree_spec (taken : Nat → Bool) (steps n : Nat) :
    n ≤ firstFree taken steps n ∧ firstFree taken steps n ≤ n + steps ∧
    (∀ k, n ≤ k → k < firstFree taken steps n → taken k = true) ∧
    (firstFree taken steps n < n + steps → taken (firstFree taken steps n) = false) := by
  induction steps generalizing n with
  | zero => exact ⟨le_rfl, le_rfl, fun k hn hk => by simp only [firstFree] at hk; omega,
      fun h => by simp only [firstFree] at h; omega⟩
  | succ steps ih =>
    obtain ⟨hle, hbound, hpassed, hstop⟩ := ih (n + 1)
    cases htaken : taken n with
    | false =>
      have heq : firstFree taken (steps + 1) n = n := by simp [firstFree, htaken]
      rw [heq]
      exact ⟨le_rfl, by omega, fun k hn hk => by omega, fun _ => htaken⟩
    | true =>
      simp only [firstFree, htaken, if_true]
      refine ⟨by omega, by omega, fun k hn hk => ?_, fun h => hstop (by omega)⟩
      rcases Nat.eq_or_lt_of_le hn with rfl | hn
      · exact htaken
      · exact hpassed k hn hk

namespace NodeShape

variable {shape : NodeShape} {store : Store}

theorem name_injective (shape : NodeShape) : Function.Injective shape.name := by
  intro m n h
  have hdigits : Nat.toDigits 10 m = Nat.toDigits 10 n := by
    have hlist := congrArg String.toList h
    simpa [name, Nat.toList_repr] using hlist
  rw [← Nat.ofDigitChars_ten_toDigits (n := m), hdigits, Nat.ofDigitChars_ten_toDigits]

/-- No more numbers in a row are taken than the store has nodes. -/
theorem le_size_of_taken {count n : Nat}
    (h : ∀ k, n ≤ k → k < n + count → store.nodes.contains (shape.name k) = true) :
    count ≤ store.nodes.size := by
  have hnodup : ((List.range' n count).map shape.name).Nodup :=
    List.Nodup.map shape.name_injective List.nodup_range'
  have hsubset : (List.range' n count).map shape.name ⊆ store.nodes.rows.map (·.id) := by
    intro name hname
    obtain ⟨k, hk, rfl⟩ := List.mem_map.mp hname
    rw [List.mem_range'_1] at hk
    exact Table.contains_iff_mem_keys.mp (h k hk.1 hk.2)
  simpa [Table.size] using (List.subperm_of_subset hnodup hsubset).length_le

/-- Of the names of more numbers than the store has nodes, one is free. -/
theorem exists_free_name (shape : NodeShape) (store : Store) (n : Nat) :
    ∃ k, n ≤ k ∧ k ≤ n + store.nodes.size ∧ store.nodes.contains (shape.name k) = false := by
  by_contra hall
  have htaken : ∀ k, n ≤ k → k < n + (store.nodes.size + 1) →
      store.nodes.contains (shape.name k) = true := by
    intro k hn hk
    by_contra hfree
    exact hall ⟨k, hn, by omega, by simpa using hfree⟩
  have hle := le_size_of_taken htaken
  omega

/-- The free number is the first whose name no node has. -/
theorem freeNumber_spec (shape : NodeShape) (store : Store) (n : Nat) :
    n ≤ shape.freeNumber store n ∧ shape.freeNumber store n ≤ n + store.nodes.size ∧
    (∀ k, n ≤ k → k < shape.freeNumber store n → store.nodes.contains (shape.name k) = true) ∧
    store.nodes.contains (shape.name (shape.freeNumber store n)) = false := by
  obtain ⟨hle, hbound, hpassed, hstop⟩ :=
    firstFree_spec (fun n => store.nodes.contains (shape.name n)) store.nodes.size n
  refine ⟨hle, hbound, hpassed, ?_⟩
  rcases Nat.lt_or_eq_of_le hbound with hlt | heq
  · exact hstop hlt
  · obtain ⟨k, hn, hk, hfree⟩ := shape.exists_free_name store n
    rcases Nat.lt_or_eq_of_le hk with hlt | rfl
    · simp [hpassed k hn (heq ▸ hlt)] at hfree
    · show store.nodes.contains (shape.name (firstFree _ _ _)) = false
      rw [heq]
      exact hfree

/-- A search that starts among taken numbers ends where the search after them does. -/
theorem freeNumber_eq_of_taken {m n : Nat} (hle : m ≤ n)
    (h : ∀ k, m ≤ k → k < n → store.nodes.contains (shape.name k) = true) :
    shape.freeNumber store m = shape.freeNumber store n := by
  obtain ⟨hm, -, hpassed, hfree⟩ := shape.freeNumber_spec store m
  obtain ⟨hn, -, hpassed', hfree'⟩ := shape.freeNumber_spec store n
  generalize shape.freeNumber store m = i, shape.freeNumber store n = j at *
  have hreach : n ≤ i := by
    by_contra hlt
    simp [h i hm (by omega)] at hfree
  rcases Nat.lt_trichotomy i j with hlt | heq | hlt
  · simp [hpassed' i hreach hlt] at hfree
  · exact heq
  · simp [hpassed j (by omega) hlt] at hfree'

/-- `after` is `before` with the nodes of `numbers` beside the others: the first numbers from
`start` on whose names were free. -/
structure Growth (shape : NodeShape) (start : Nat) (numbers : List Nat) (before after : Store) :
    Prop where
  pods_eq : after.pods = before.pods
  rows_perm : after.nodes.rows.Perm (numbers.map shape.node ++ before.nodes.rows)
  ascending : numbers.Pairwise (· < ·)
  start_le : ∀ k ∈ numbers, start ≤ k
  free : ∀ k ∈ numbers, before.nodes.contains (shape.name k) = false
  least : ∀ k ∈ numbers, ∀ j, start ≤ j → j < k →
    j ∈ numbers ∨ before.nodes.contains (shape.name j) = true

theorem Growth.refl (shape : NodeShape) (start : Nat) (store : Store) :
    Growth shape start [] store store :=
  ⟨rfl, .refl _, .nil, by simp, by simp, by simp⟩

/-- Putting in the first free node and growing from the next number on is growth. -/
theorem Growth.cons {numbers : List Nat} {n : Nat} {after : Store}
    (h : Growth shape (shape.freeNumber store n + 1) numbers
      (store.putNode (shape.node (shape.freeNumber store n))) after) :
    Growth shape n (shape.freeNumber store n :: numbers) store after := by
  obtain ⟨hle, -, hpassed, hfree⟩ := shape.freeNumber_spec store n
  generalize shape.freeNumber store n = free at *
  have hrows : (store.putNode (shape.node free)).nodes.rows.Perm
      (shape.node free :: store.nodes.rows) := Table.insert_perm_of_fresh hfree
  have hcontains : ∀ k, (store.putNode (shape.node free)).nodes.contains (shape.name k) = true ↔
      k = free ∨ store.nodes.contains (shape.name k) = true := by
    intro k
    rw [Table.contains_iff_mem_keys, (hrows.map _).mem_iff, List.map_cons, List.mem_cons,
      ← Table.contains_iff_mem_keys]
    exact or_congr_left (shape.name_injective.eq_iff (a := k) (b := free))
  constructor
  · exact h.pods_eq
  · rw [List.map_cons, List.cons_append]
    exact h.rows_perm.trans ((hrows.append_left _).trans List.perm_middle)
  · exact List.pairwise_cons.mpr ⟨fun k hk => h.start_le k hk, h.ascending⟩
  · intro k hk
    rcases List.mem_cons.mp hk with rfl | hk
    · exact hle
    · have := h.start_le k hk
      omega
  · intro k hk
    rcases List.mem_cons.mp hk with rfl | hk
    · exact hfree
    · have hnot := h.free k hk
      rw [← Bool.not_eq_true, hcontains, not_or] at hnot
      simpa using hnot.2
  · intro k hk j hn hj
    rcases List.mem_cons.mp hk with rfl | hk
    · exact .inr (hpassed j hn hj)
    · rcases Nat.lt_trichotomy j free with hlt | rfl | hlt
      · exact .inr (hpassed j hn hlt)
      · exact .inl List.mem_cons_self
      · rcases h.least k hk j hlt hj with hmem | hmem
        · exact .inl (List.mem_cons_of_mem _ hmem)
        · rcases (hcontains j).mp hmem with rfl | hmem
          · exact .inl List.mem_cons_self
          · exact .inr hmem

theorem Growth.size_eq {numbers : List Nat} {n : Nat} {before after : Store}
    (h : Growth shape n numbers before after) :
    after.nodes.size = numbers.length + before.nodes.size := by
  simpa [Table.size] using h.rows_perm.length_eq

theorem Growth.contains_iff {numbers : List Nat} {n : Nat} {before after : Store}
    (h : Growth shape n numbers before after) {k : Nat} :
    after.nodes.contains (shape.name k) = true ↔
      k ∈ numbers ∨ before.nodes.contains (shape.name k) = true := by
  rw [Table.contains_iff_mem_keys, (h.rows_perm.map _).mem_iff, List.map_append, List.map_map,
    List.mem_append, ← Table.contains_iff_mem_keys]
  exact or_congr_left (List.mem_map_of_injective shape.name_injective)

/-- The numbers that the added nodes get, in the order in which they are added. -/
def newNumbers (shape : NodeShape) : Nat → Nat → Store → List Nat
  | 0, _, _ => []
  | count + 1, n, store =>
    let free := shape.freeNumber store n
    free :: shape.newNumbers count (free + 1) (store.putNode (shape.node free))

@[simp] theorem length_newNumbers (shape : NodeShape) (count n : Nat) (store : Store) :
    (shape.newNumbers count n store).length = count := by
  induction count generalizing n store with
  | zero => rfl
  | succ count ih => rw [newNumbers, List.length_cons, ih]

theorem growth_addNodes (shape : NodeShape) (count n : Nat) (store : Store) :
    Growth shape n (shape.newNumbers count n store) store (shape.addNodes count n store) := by
  induction count generalizing n store with
  | zero => exact .refl shape n store
  | succ count ih => exact (ih _ _).cons

/-- Adding nodes adds exactly as many as asked for. -/
theorem exists_growth (shape : NodeShape) (count n : Nat) (store : Store) :
    ∃ numbers, numbers.length = count ∧
      Growth shape n numbers store (shape.addNodes count n store) :=
  ⟨_, shape.length_newNumbers count n store, shape.growth_addNodes count n store⟩

end NodeShape

end Headroom.Scaling
