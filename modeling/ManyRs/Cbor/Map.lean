import Mathlib.Order.Lattice

/-! `BTreeMap` as the codecs build it. `FromIterator` collects the pairs of an iterator,
sorts them by key, stably, and keeps the last pair of each run of equal keys
(`bulk_build_from_sorted_iter` over a `DedupSortedIter`). A map is its strictly sorted
entry list, and it means its `lookup`. -/
namespace ManyRs.Cbor

variable {K V : Type}

/-- `DedupSortedIter`: of a run of pairs with equal keys, only the last is kept. -/
def dedupLast (cmp : K → K → Ordering) : List (K × V) → List (K × V)
  | [] => []
  | e :: rest =>
    match rest with
    | [] => [e]
    | e' :: _ => if cmp e.1 e'.1 = .eq then dedupLast cmp rest else e :: dedupLast cmp rest

@[simp] theorem dedupLast_singleton (cmp : K → K → Ordering) (e : K × V) :
    dedupLast cmp [e] = [e] := rfl

@[simp] theorem dedupLast_cons_cons (cmp : K → K → Ordering) (e e' : K × V) (es : List (K × V)) :
    dedupLast cmp (e :: e' :: es) =
      if cmp e.1 e'.1 = .eq then dedupLast cmp (e' :: es) else e :: dedupLast cmp (e' :: es) :=
  rfl

/-- `BTreeMap::from_iter`: the pairs sorted by key with a stable sort, then the last of
each run of equal keys. -/
def fromIter (cmp : K → K → Ordering) (l : List (K × V)) : List (K × V) :=
  dedupLast cmp (l.mergeSort fun a b => cmp a.1 b.1 != .gt)

/-- The entries of a `BTreeMap`: keys strictly increasing. -/
def SortedKeys (cmp : K → K → Ordering) (l : List (K × V)) : Prop :=
  l.Pairwise fun a b => cmp a.1 b.1 = .lt

instance (cmp : K → K → Ordering) (l : List (K × V)) : Decidable (SortedKeys cmp l) :=
  inferInstanceAs (Decidable (l.Pairwise _))

theorem dedupLast_of_sorted (cmp : K → K → Ordering) :
    ∀ {l : List (K × V)}, SortedKeys cmp l → dedupLast cmp l = l
  | [], _ => rfl
  | [_], _ => rfl
  | e :: e' :: es, h => by
    have hlt : cmp e.1 e'.1 = .lt := List.rel_of_pairwise_cons h (List.mem_cons_self _ _)
    have ht : SortedKeys cmp (e' :: es) := (List.pairwise_cons.mp h).2
    rw [dedupLast_cons_cons, hlt, if_neg nofun, dedupLast_of_sorted cmp ht]

theorem dedupLast_sublist (cmp : K → K → Ordering) : ∀ l : List (K × V), (dedupLast cmp l).Sublist l
  | [] => .slnil
  | [_] => .refl _
  | e :: e' :: es => by
    rw [dedupLast_cons_cons]
    split
    · exact (dedupLast_sublist cmp (e' :: es)).cons e
    · exact (dedupLast_sublist cmp (e' :: es)).cons₂ e

/-- Collecting the entries of a map gives the map back. -/
theorem fromIter_of_sorted (cmp : K → K → Ordering) {l : List (K × V)}
    (h : SortedKeys cmp l) : fromIter cmp l = l := by
  have hle : l.Pairwise fun a b => (cmp a.1 b.1 != .gt) = true :=
    h.imp fun hab => by rw [hab]; rfl
  rw [fromIter, List.mergeSort_of_sorted hle, dedupLast_of_sorted cmp h]

/-- `BTreeMap::insert`: a new key goes to its place in key order; an existing key keeps its
place and takes the new value. -/
def insertEntry (cmp : K → K → Ordering) (k : K) (v : V) : List (K × V) → List (K × V)
  | [] => [(k, v)]
  | (k', v') :: es =>
    match cmp k k' with
    | .lt => (k, v) :: (k', v') :: es
    | .eq => (k', v) :: es
    | .gt => (k', v') :: insertEntry cmp k v es

/-- A key above every key of the map goes last. -/
theorem insertEntry_of_gt (cmp : K → K → Ordering) (k : K) (v : V) :
    ∀ {l : List (K × V)}, (∀ e ∈ l, cmp k e.1 = .gt) → insertEntry cmp k v l = l ++ [(k, v)]
  | [], _ => rfl
  | (k', v') :: es, h => by
    rw [insertEntry, h (k', v') (List.mem_cons_self _ _),
      insertEntry_of_gt cmp k v fun e he => h e (List.mem_cons_of_mem _ he)]
    rfl

/-- `BTreeMap::get_key_value`: the entry whose key compares equal to `k`. -/
def getKeyValue (cmp : K → K → Ordering) (k : K) (l : List (K × V)) : Option (K × V) :=
  l.find? fun e => decide (cmp k e.1 = .eq)

section Lookup

variable [LinearOrder K]

/-- The sort key of `from_iter` under a linear order. -/
theorem keyLe_iff (a b : K × V) : (compare a.1 b.1 != .gt) = true ↔ a.1 ≤ b.1 := by
  rw [← not_lt, ← gt_iff_lt, ← compare_gt_iff_gt]
  cases compare a.1 b.1 <;> decide

theorem keyLe_trans (a b c : K × V) (h₁ : (compare a.1 b.1 != .gt) = true)
    (h₂ : (compare b.1 c.1 != .gt) = true) : (compare a.1 c.1 != .gt) = true :=
  (keyLe_iff a c).mpr (le_trans ((keyLe_iff a b).mp h₁) ((keyLe_iff b c).mp h₂))

theorem keyLe_total (a b : K × V) : ((compare a.1 b.1 != .gt) || (compare b.1 a.1 != .gt)) = true := by
  rw [Bool.or_eq_true, keyLe_iff, keyLe_iff]
  exact le_total a.1 b.1

/-- Of a list sorted by key, `dedupLast` leaves the keys strictly increasing. -/
theorem dedupLast_sorted :
    ∀ {l : List (K × V)}, l.Pairwise (fun a b => a.1 ≤ b.1) → SortedKeys compare (dedupLast compare l)
  | [], _ => .nil
  | [_], _ => List.pairwise_singleton _ _
  | e :: e' :: es, hs => by
    have ih := dedupLast_sorted (List.pairwise_cons.mp hs).2
    rw [dedupLast_cons_cons]
    split
    · exact ih
    · next hne =>
      refine List.Pairwise.cons (fun x hx => ?_) ih
      have hx' : x ∈ e' :: es := (dedupLast_sublist compare _).subset hx
      have hlt : e.1 < e'.1 := lt_of_le_of_ne ((List.pairwise_cons.mp hs).1 e' (List.mem_cons_self _ _))
        (mt compare_eq_iff_eq.mpr hne)
      have hle : e'.1 ≤ x.1 := by
        rcases List.mem_cons.mp hx' with rfl | hx'
        · exact le_rfl
        · exact List.rel_of_pairwise_cons (List.pairwise_cons.mp hs).2 hx'
      exact compare_lt_iff_lt.mpr (lt_of_lt_of_le hlt hle)

/-- `BTreeMap::from_iter` builds a map. -/
theorem sortedKeys_fromIter (l : List (K × V)) : SortedKeys compare (fromIter compare l) :=
  dedupLast_sorted ((List.sorted_mergeSort keyLe_trans keyLe_total l).imp (keyLe_iff _ _).mp)

/-- Collecting a collected map again changes nothing (`into_iter().collect()`). -/
theorem fromIter_fromIter (l : List (K × V)) :
    fromIter compare (fromIter compare l) = fromIter compare l :=
  fromIter_of_sorted compare (sortedKeys_fromIter l)

variable [BEq K] [LawfulBEq K]

theorem lookup_cons_pair (k : K) (e : K × V) (l : List (K × V)) :
    (e :: l).lookup k = if e.1 = k then some e.2 else l.lookup k := by
  obtain ⟨a, b⟩ := e
  rw [List.lookup_cons]
  by_cases h : a = k
  · simp [h]
  · simp [h, beq_eq_false_iff_ne.mpr (Ne.symm h)]

/-- Of a list's pairs, those with key `k`. -/
def withKey (k : K) (l : List (K × V)) : List (K × V) := l.filter fun e => e.1 == k

theorem withKey_cons (k : K) (e : K × V) (l : List (K × V)) :
    withKey k (e :: l) = if e.1 = k then e :: withKey k l else withKey k l := by
  by_cases h : e.1 = k <;> simp [withKey, List.filter_cons, h]

theorem lookup_eq_withKey (k : K) :
    ∀ l : List (K × V), l.lookup k = ((withKey k l).head?).map Prod.snd
  | [] => rfl
  | e :: l => by
    by_cases h : e.1 = k
    · simp [withKey, lookup_cons_pair, h]
    · simp [withKey, lookup_cons_pair, h, lookup_eq_withKey k l]

/-- On a list sorted by key, `dedupLast` keeps for each key the value of its last pair. -/
theorem lookup_dedupLast (k : K) :
    ∀ {l : List (K × V)}, l.Pairwise (fun a b => a.1 ≤ b.1) →
      (dedupLast compare l).lookup k = ((withKey k l).getLast?).map Prod.snd
  | [], _ => rfl
  | [e], _ => by by_cases h : e.1 = k <;> simp [withKey, lookup_cons_pair, h]
  | e :: e' :: es, hs => by
    have ih := lookup_dedupLast k (List.pairwise_cons.mp hs).2
    have hle : ∀ x ∈ e' :: es, e.1 ≤ x.1 := (List.pairwise_cons.mp hs).1
    rw [dedupLast_cons_cons]
    by_cases heq : e.1 = e'.1
    · rw [if_pos (compare_eq_iff_eq.mpr heq), ih]
      by_cases hk : e.1 = k
      · have hnil : withKey k (e' :: es) ≠ [] := by simp [withKey, ← hk, heq]
        rw [withKey_cons k e, if_pos hk, List.getLast?_cons, List.getLast?_eq_getLast _ hnil]
        rfl
      · rw [withKey_cons k e, if_neg hk]
    · rw [if_neg (mt compare_eq_iff_eq.mp heq), lookup_cons_pair, withKey_cons k e]
      by_cases hk : e.1 = k
      · have hnone : withKey k (e' :: es) = [] := by
          refine List.filter_eq_nil_iff.mpr fun x hx hxk => heq ?_
          have h2 : e'.1 ≤ x.1 := by
            rcases List.mem_cons.mp hx with rfl | hx
            · exact le_rfl
            · exact List.rel_of_pairwise_cons (List.pairwise_cons.mp hs).2 hx
          exact le_antisymm (hle e' (List.mem_cons_self _ _))
            (by rw [hk, ← beq_iff_eq.mp hxk]; exact h2)
        rw [if_pos hk, if_pos hk, hnone]
        rfl
      · rw [if_neg hk, if_neg hk, ih]

theorem getKeyValue_eq_lookup (k : K) :
    ∀ l : List (K × V), getKeyValue compare k l = (l.lookup k).map (k, ·)
  | [] => rfl
  | e :: l => by
    rw [getKeyValue, List.find?_cons, lookup_cons_pair]
    by_cases h : e.1 = k
    · rw [decide_eq_true (compare_eq_iff_eq.mpr h.symm), if_pos h, ← h]
      rfl
    · rw [decide_eq_false (mt compare_eq_iff_eq.mp (Ne.symm h)), if_neg h]
      exact getKeyValue_eq_lookup k l

theorem lookup_map_pair {α : Type} (f : α → K) (k : K) :
    ∀ l : List α, (l.map fun x => (f x, x)).lookup k = l.find? fun x => f x == k
  | [] => rfl
  | x :: l => by
    rw [List.map_cons, lookup_cons_pair, List.find?_cons]
    by_cases h : f x = k
    · rw [if_pos h, beq_iff_eq.mpr h]
    · rw [if_neg h, beq_eq_false_iff_ne.mpr h, lookup_map_pair f k l]

theorem mem_keys_iff (k : K) : ∀ l : List (K × V), k ∈ l.map Prod.fst ↔ (l.lookup k).isSome
  | [] => by simp
  | e :: l => by
    rw [lookup_cons_pair, List.map_cons, List.mem_cons, mem_keys_iff k l]
    by_cases h : e.1 = k
    · simp [h]
    · simp [h, Ne.symm h]

omit [LinearOrder K] in
/-- Of a list with distinct keys, at most one pair has key `k`. -/
theorem withKey_length_le (k : K) {l : List (K × V)} (h : (l.map Prod.fst).Nodup) :
    (withKey k l).length ≤ 1 := by
  have hnd : ((withKey k l).map Prod.fst).Nodup := h.sublist ((List.filter_sublist l).map _)
  have hk : ∀ e ∈ withKey k l, e.1 = k := fun e he => by
    simpa [withKey] using (List.mem_filter.mp he).2
  rcases hw : withKey k l with _ | ⟨a, _ | ⟨b, rest⟩⟩
  · simp
  · simp
  · rw [hw] at hnd hk
    have hab : a.1 ≠ b.1 := by simp_all
    exact absurd ((hk a (by simp)).trans (hk b (by simp)).symm) hab

/-- Of a list with distinct keys, the first and the last pair of a key are the same. -/
theorem lookup_reverse_of_nodup (k : K) {l : List (K × V)} (h : (l.map Prod.fst).Nodup) :
    l.reverse.lookup k = l.lookup k := by
  rw [lookup_eq_withKey, lookup_eq_withKey, withKey, List.filter_reverse, ← withKey,
    List.head?_reverse]
  have hle := withKey_length_le k h
  rcases hw : withKey k l with _ | ⟨a, _ | ⟨b, rest⟩⟩
  · rfl
  · rfl
  · simp [hw] at hle

/-- Stability of the sort: the pairs of one key keep their order. -/
theorem withKey_mergeSort (k : K) (l : List (K × V)) :
    withKey k (l.mergeSort fun a b => compare a.1 b.1 != .gt) = withKey k l := by
  have hsorted : (withKey k l).Pairwise fun a b => (compare a.1 b.1 != .gt) = true :=
    List.pairwise_of_forall_mem_list fun a ha b hb => by
      simp only [withKey, List.mem_filter, beq_iff_eq] at ha hb
      rw [keyLe_iff, ha.2, hb.2]
  have hsub := List.sublist_mergeSort keyLe_trans keyLe_total hsorted (List.filter_sublist l)
  refine (List.Sublist.eq_of_length ?_ ?_).symm
  · simpa [withKey, List.filter_filter] using hsub.filter fun e => e.1 == k
  · exact ((List.mergeSort_perm l _).filter _).length_eq.symm

/-- `BTreeMap::from_iter` binds each key to the value of its last pair. -/
theorem lookup_fromIter (k : K) (l : List (K × V)) :
    (fromIter compare l).lookup k = l.reverse.lookup k := by
  have hsorted : (l.mergeSort fun a b => compare a.1 b.1 != .gt).Pairwise
      fun a b => (compare a.1 b.1 != .gt) = true :=
    List.sorted_mergeSort keyLe_trans keyLe_total l
  rw [fromIter, lookup_dedupLast k (hsorted.imp fun h => (keyLe_iff _ _).mp h),
    withKey_mergeSort, lookup_eq_withKey, withKey, withKey, List.filter_reverse,
    List.head?_reverse]

/-- `BTreeMap::from_iter` keeps every key of its pairs, and no other. -/
theorem mem_keys_fromIter (k : K) (l : List (K × V)) :
    k ∈ (fromIter compare l).map Prod.fst ↔ k ∈ l.map Prod.fst := by
  rw [mem_keys_iff, lookup_fromIter, ← mem_keys_iff, List.map_reverse, List.mem_reverse]

end Lookup

end ManyRs.Cbor
