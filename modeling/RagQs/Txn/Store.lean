import Mathlib

/-!
# A store of rows

A database state is a finite map from row keys to rows.  The key says which table
the row is in and the type of the row depends on it, so one store holds every
table; the entries of a unique index are rows as well, kept under a key of their
own.  An entry may also be the mark a deletion leaves, which makes the pending
writes of an open transaction a store of the same kind: laying them over the
committed store is the union of the two maps, left-biased.

## Main definitions

* `Store`, `Store.get`, `Store.set` — stores, the row at a key, writing a key.
* `Store.applyAll` — several writes, one after the other.
* `Store.rows` — the rows of a store, in the order of its entries.
* `Store.total` — the sum of a quantity over the rows.

## Main results

* `Store.mem_rows` — the rows are what `get` finds.
* `Store.total_set` — what one write does to a sum over the rows.
-/

namespace Txn

open List AList

variable {K : Type} {Row : K → Type}

/-- A finite map from keys to rows.  The entry `none` is the mark of a deleted row. -/
abbrev Store {K : Type} (Row : K → Type) := AList fun k => Option (Row k)

/-- One write: the new row of a key, or `none` to delete it. -/
abbrev Write {K : Type} (Row : K → Type) := Sigma fun k => Option (Row k)

namespace Store

section Get

variable [DecidableEq K]

/-- The row at a key, `none` when there is no such row. -/
def get (s : Store Row) (k : K) : Option (Row k) := (s.lookup k).join

/-- Write (or, with `none`, delete) the row at a key. -/
def set (s : Store Row) (k : K) (r : Option (Row k)) : Store Row := s.insert k r

/-- The writes of one statement, in order. -/
def applyAll (s : Store Row) : List (Write Row) → Store Row
  | [] => s
  | ⟨k, r⟩ :: ws => (s.set k r).applyAll ws

@[simp] theorem applyAll_nil (s : Store Row) : s.applyAll [] = s := rfl

@[simp] theorem applyAll_cons (s : Store Row) (k : K) (r : Option (Row k))
    (ws : List (Write Row)) : s.applyAll (⟨k, r⟩ :: ws) = (s.set k r).applyAll ws := rfl

@[simp] theorem get_empty (k : K) : get (∅ : Store Row) k = none := by
  simp [get]

@[simp] theorem get_set_self (s : Store Row) (k : K) (r : Option (Row k)) :
    (s.set k r).get k = r := by
  simp [get, set]

variable {k : K}

theorem get_set_of_ne {s : Store Row} {k' : K} {r : Option (Row k)} (h : k' ≠ k) :
    (s.set k r).get k' = s.get k' := by
  simp [get, set, lookup_insert_ne h]

@[simp] theorem mem_set (s : Store Row) (k k' : K) (r : Option (Row k)) :
    k' ∈ s.set k r ↔ k' = k ∨ k' ∈ s := by
  simp [set]

/-- A write on top of pending writes is a write on the store they are laid over. -/
@[simp] theorem set_union (d c : Store Row) (k : K) (r : Option (Row k)) :
    d.set k r ∪ c = (d ∪ c : Store Row).set k r :=
  insert_union.symm

@[simp] theorem applyAll_union (ws : List (Write Row)) (d c : Store Row) :
    d.applyAll ws ∪ c = (d ∪ c : Store Row).applyAll ws := by
  induction ws generalizing d with
  | nil => rfl
  | cons w ws ih =>
    obtain ⟨k, r⟩ := w
    rw [applyAll_cons, ih, set_union, applyAll_cons]

variable {ws : List (Write Row)} {d : Store Row}

theorem mem_applyAll : k ∈ d.applyAll ws ↔ k ∈ ws.map Sigma.fst ∨ k ∈ d := by
  induction ws generalizing d with
  | nil => simp
  | cons w ws ih =>
    obtain ⟨k', r⟩ := w
    simp only [applyAll_cons, ih, mem_set, map_cons, mem_cons]
    tauto

theorem applyAll_append (s : Store Row) (ws ws' : List (Write Row)) :
    s.applyAll (ws ++ ws') = (s.applyAll ws).applyAll ws' := by
  induction ws generalizing s with
  | nil => rfl
  | cons w ws ih =>
    obtain ⟨k, r⟩ := w
    exact ih _

variable {s : Store Row}

/-- A key that is not written keeps its row. -/
theorem get_applyAll_of_notMem (h : k ∉ ws.map Sigma.fst) : (s.applyAll ws).get k = s.get k := by
  induction ws generalizing s with
  | nil => rfl
  | cons w ws ih =>
    obtain ⟨k', r⟩ := w
    simp only [map_cons, mem_cons, not_or] at h
    rw [applyAll_cons, ih h.2, get_set_of_ne h.1]

/-- A key that is written once has the row that was written. -/
theorem get_applyAll_of_mem {r : Option (Row k)} (hnodup : (ws.map Sigma.fst).Nodup)
    (h : ⟨k, r⟩ ∈ ws) : (s.applyAll ws).get k = r := by
  induction ws generalizing s with
  | nil => cases h
  | cons w ws ih =>
    obtain ⟨k', r'⟩ := w
    obtain ⟨hnew, hnodup⟩ := nodup_cons.mp hnodup
    rcases mem_cons.mp h with h | h
    · cases h
      rw [applyAll_cons, get_applyAll_of_notMem hnew, get_set_self]
    · exact ih hnodup h

/-- The deletion of the rows of some keys. -/
theorem get_applyAll_delete {ks : List K} :
    (s.applyAll (ks.map fun k => ⟨k, none⟩)).get k = if k ∈ ks then none else s.get k := by
  induction ks generalizing s with
  | nil => rfl
  | cons k' ks ih =>
    rw [map_cons, applyAll_cons, ih]
    by_cases hk : k ∈ ks
    · simp [hk]
    · by_cases h : k = k'
      · subst h
        simp [hk]
      · simp [hk, h, get_set_of_ne h]

/-- A key without a pending write is read from the store underneath. -/
theorem get_union_of_notMem {c : Store Row} (h : k ∉ d) : (d ∪ c : Store Row).get k = c.get k := by
  unfold get
  rw [lookup_union_right h]

/-- A pending write hides the store underneath. -/
theorem get_union_of_mem {c : Store Row} (h : k ∈ d) : (d ∪ c : Store Row).get k = d.get k := by
  unfold get
  rw [lookup_union_left h]

/-- A row of the view depends on the store underneath through that row only. -/
theorem get_union_congr {c c' : Store Row} (h : c'.get k = c.get k) :
    (d ∪ c' : Store Row).get k = (d ∪ c : Store Row).get k := by
  by_cases hk : k ∈ d
  · rw [get_union_of_mem hk, get_union_of_mem hk]
  · rw [get_union_of_notMem hk, get_union_of_notMem hk, h]

end Get

/-! ### The rows of a store -/

/-- The rows of a store, with their keys. -/
def rows (s : Store Row) : List (Sigma Row) :=
  s.entries.filterMap fun e => e.2.map (Sigma.mk e.1)

theorem mem_rows [DecidableEq K] {s : Store Row} {k : K} {r : Row k} :
    ⟨k, r⟩ ∈ s.rows ↔ s.get k = some r := by
  unfold rows get
  rw [mem_filterMap]
  constructor
  · rintro ⟨⟨k', o⟩, hmem, hmap⟩
    cases o with
    | none => cases hmap
    | some r' =>
      simp only [Option.map_some, Option.some.injEq] at hmap
      cases hmap
      rw [(mem_lookup_iff (s := s)).mpr hmem]
      rfl
  · intro h
    cases hl : s.lookup k with
    | none => simp [hl] at h
    | some o =>
      rw [hl, Option.join_some] at h
      subst h
      exact ⟨⟨k, some r⟩, mem_lookup_iff.mp hl, rfl⟩

/-- A key has one row. -/
theorem nodup_rows (s : Store Row) : (s.rows.map Sigma.fst).Nodup := by
  unfold rows
  refine Nodup.sublist ?_ s.nodupKeys
  induction s.entries with
  | nil => exact .slnil
  | cons e es ih =>
    obtain ⟨k, o⟩ := e
    cases o with
    | none => exact ih.cons _
    | some r => exact ih.cons_cons _

/-! ### Sums over the rows -/

section Total

variable {M : Type} [AddCommMonoid M]

/-- What the entry of one key adds to a sum. -/
def weight (f : (k : K) → Row k → M) (k : K) : Option (Row k) → M
  | none => 0
  | some r => f k r

@[simp] theorem weight_none (f : (k : K) → Row k → M) (k : K) : weight f k none = 0 := rfl

@[simp] theorem weight_some (f : (k : K) → Row k → M) (k : K) (r : Row k) :
    weight f k (some r) = f k r := rfl

/-- The sum of a quantity over the rows of a store. -/
def total (f : (k : K) → Row k → M) (s : Store Row) : M :=
  (s.rows.map fun e => f e.1 e.2).sum

@[simp] theorem total_empty (f : (k : K) → Row k → M) : total f (∅ : Store Row) = 0 := rfl

/-- The sum, read off the entries. -/
theorem total_eq_sum_entries (f : (k : K) → Row k → M) (s : Store Row) :
    total f s = (s.entries.map fun e => weight f e.1 e.2).sum := by
  unfold total rows
  induction s.entries with
  | nil => rfl
  | cons e l ih =>
    obtain ⟨k, o⟩ := e
    cases o with
    | none => simpa using ih
    | some r => simpa using congrArg (f k r + ·) ih

private theorem sum_kerase [DecidableEq K] (f : (k : K) → Row k → M) (k : K) :
    ∀ l : List (Write Row), l.NodupKeys →
      ((l.kerase k).map fun e => weight f e.1 e.2).sum + weight f k ((l.dlookup k).join)
        = (l.map fun e => weight f e.1 e.2).sum := by
  intro l
  induction l with
  | nil => intro _; simp
  | cons e l ih =>
    intro hl
    obtain ⟨k', o⟩ := e
    obtain ⟨hk', hl'⟩ := nodupKeys_cons.mp hl
    by_cases h : k = k'
    · subst h
      have hker : kerase k (⟨k, o⟩ :: l) = l :=
        kerase_cons_eq (s := (⟨k, o⟩ : Write Row)) rfl
      rw [hker, dlookup_cons_eq, map_cons, sum_cons, add_comm]
      rfl
    · rw [kerase_cons_ne h, dlookup_cons_ne l ⟨k', o⟩ h]
      rw [map_cons, sum_cons, map_cons, sum_cons, add_assoc, ih hl']

/-- **What one write does to a sum over the rows**: the old row of the key goes
out of it and the new one comes in. -/
theorem total_set [DecidableEq K] (f : (k : K) → Row k → M) (s : Store Row) (k : K) (r : Option (Row k)) :
    total f (s.set k r) + weight f k (s.get k) = total f s + weight f k r := by
  rw [total_eq_sum_entries, total_eq_sum_entries]
  unfold set
  rw [entries_insert, map_cons, sum_cons]
  have h := sum_kerase f k s.entries s.nodupKeys
  calc weight f k r + ((s.entries.kerase k).map fun e => weight f e.1 e.2).sum
          + weight f k (s.get k)
      = (((s.entries.kerase k).map fun e => weight f e.1 e.2).sum
          + weight f k ((s.entries.dlookup k).join)) + weight f k r := by
        rw [add_comm (weight f k r), add_right_comm]; rfl
    _ = (s.entries.map fun e => weight f e.1 e.2).sum + weight f k r := by rw [h]

/-- A new row is added to the sum. -/
theorem total_set_new [DecidableEq K] (f : (k : K) → Row k → M) {s : Store Row} {k : K} (r : Option (Row k))
    (h : s.get k = none) : total f (s.set k r) = total f s + weight f k r := by
  have := total_set f s k r
  rwa [h, weight_none, add_zero] at this

/-- A write of a row the quantity is zero on, before and after, keeps the sum. -/
theorem total_set_zero [DecidableEq K] (f : (k : K) → Row k → M) {s : Store Row} {k : K} {r : Option (Row k)}
    (hold : weight f k (s.get k) = 0) (hnew : weight f k r = 0) :
    total f (s.set k r) = total f s := by
  have := total_set f s k r
  rwa [hold, hnew, add_zero, add_zero] at this

section Sum

variable [DecidableEq K]

/-- The sum, over any finite set of keys that has those of the rows. -/
theorem total_eq_sum (f : (k : K) → Row k → M) (s : Store Row) {S : Finset K}
    (hS : ∀ k r, s.get k = some r → k ∈ S) : total f s = ∑ k ∈ S, weight f k (s.get k) := by
  have hzero : ∀ k, k ∉ S → weight f k (s.get k) = 0 := by
    intro k hk
    cases hget : s.get k with
    | none => rfl
    | some r => exact absurd (hS k r hget) hk
  have hkeys : ∀ k, k ∉ s.keys.toFinset → weight f k (s.get k) = 0 := by
    intro k hk
    rw [mem_toFinset, ← AList.mem_keys] at hk
    unfold get
    rw [lookup_eq_none.mpr hk]
    rfl
  have hentries : (s.entries.map fun e => weight f e.1 e.2).sum
      = ∑ k ∈ s.keys.toFinset, weight f k (s.get k) := by
    rw [sum_toFinset _ s.keys_nodup]
    show _ = ((s.entries.map Sigma.fst).map _).sum
    rw [map_map]
    refine congrArg List.sum (map_congr_left fun e he => ?_)
    have hget : s.get e.1 = e.2 := by
      unfold get
      rw [mem_lookup_iff.mpr (by exact he)]
      rfl
    show weight f e.1 e.2 = weight f e.1 (s.get e.1)
    rw [hget]
  have hleft : ∑ k ∈ s.keys.toFinset, weight f k (s.get k)
      = ∑ k ∈ s.keys.toFinset ∪ S, weight f k (s.get k) :=
    Finset.sum_subset Finset.subset_union_left fun k _ hk => hkeys k hk
  have hright : ∑ k ∈ S, weight f k (s.get k)
      = ∑ k ∈ s.keys.toFinset ∪ S, weight f k (s.get k) :=
    Finset.sum_subset Finset.subset_union_right fun k _ hk => hzero k hk
  rw [total_eq_sum_entries, hentries, hleft, hright]

/-- The keys of the rows of a store are finitely many. -/
theorem mem_keys_of_get {s : Store Row} {k : K} {r : Row k} (h : s.get k = some r) :
    k ∈ s.keys.toFinset := by
  rw [mem_toFinset, ← AList.mem_keys, ← lookup_isSome]
  unfold get at h
  cases hl : s.lookup k with
  | none => simp [hl] at h
  | some _ => rfl

/-- The sum depends on what each row adds to it. -/
theorem total_congr {f : (k : K) → Row k → M} {s t : Store Row}
    (h : ∀ k, weight f k (s.get k) = weight f k (t.get k)) : total f s = total f t := by
  have hs := total_eq_sum f s (S := s.keys.toFinset ∪ t.keys.toFinset)
    fun _ _ hk => Finset.mem_union_left _ (mem_keys_of_get hk)
  have ht := total_eq_sum f t (S := s.keys.toFinset ∪ t.keys.toFinset)
    fun _ _ hk => Finset.mem_union_right _ (mem_keys_of_get hk)
  rw [hs, ht]
  exact Finset.sum_congr rfl fun k _ => h k

end Sum

end Total

end Store
end Txn
