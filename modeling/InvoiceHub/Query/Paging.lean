import Mathlib.Data.List.Nodup
import Mathlib.Data.List.Perm.Basic

/-!
# Pages of a list that is ordered anew for each

Each page is cut out of an arrangement of the rows of its own, by an order that may leave ties.
Whatever the arrangements are, the pages hold every row once exactly where no two rows that tie
stand on different pages (`pages_perm_iff`).
-/

namespace InvoiceHub.Query

variable {α : Type} {leq : α → α → Bool} {rows l l' : List α} {size k n : Nat} {x y : α}

/-- Page `k`, counted from 0. -/
def page (size k : Nat) (l : List α) : List α :=
  (l.drop (k * size)).take size

/-- The rows in an order. -/
structure Arranges (leq : α → α → Bool) (rows l : List α) : Prop where
  perm : l.Perm rows
  sorted : l.Pairwise fun x y => leq x y = true

/-- Any two rows are comparable, and consistently so. -/
structure IsOrder (leq : α → α → Bool) : Prop where
  total : ∀ x y, leq x y = true ∨ leq y x = true
  trans : ∀ x y z, leq x y = true → leq y z = true → leq x z = true

/-- Rows that tie are on one page. -/
def TiesTogether (leq : α → α → Bool) (size : Nat) (rows : List α) : Prop :=
  ∀ l, Arranges leq rows l → ∀ (i j : Nat) x y, l[i]? = some x → l[j]? = some y →
    leq x y = true → leq y x = true → i / size = j / size

theorem mem_page (hsize : 0 < size) :
    x ∈ page size k l ↔ ∃ i, i / size = k ∧ l[i]? = some x := by
  unfold page
  rw [List.mem_iff_getElem?]
  constructor
  · rintro ⟨m, hm⟩
    have hlt : m < size := by
      by_contra hge
      rw [List.getElem?_take_eq_none (Nat.le_of_not_lt hge)] at hm
      cases hm
    rw [List.getElem?_take_of_lt hlt, List.getElem?_drop] at hm
    refine ⟨k * size + m, ?_, hm⟩
    rw [Nat.add_comm, Nat.add_mul_div_right _ _ hsize, Nat.div_eq_of_lt hlt, Nat.zero_add]
  · rintro ⟨i, rfl, hi⟩
    refine ⟨i % size, ?_⟩
    rw [List.getElem?_take_of_lt (Nat.mod_lt i hsize), List.getElem?_drop, Nat.mul_comm,
      Nat.div_add_mod]
    exact hi

theorem flatMap_page (l : List α) (size n : Nat) :
    (List.range n).flatMap (fun k => page size k l) = l.take (n * size) := by
  induction n with
  | zero => simp
  | succ n ih =>
    rw [List.range_succ, List.flatMap_append, ih, List.flatMap_singleton, Nat.succ_mul,
      List.take_add]
    rfl

/-- What is below something comes first. -/
theorem take_countP (hl : l.Pairwise fun x y => leq x y = true) {p : α → Bool}
    (hp : ∀ x y, leq x y = true → p y = true → p x = true) : l.take (l.countP p) = l.filter p := by
  induction hl with
  | nil => rfl
  | @cons x l hx hl ih =>
    cases hpx : p x with
    | true => rw [List.countP_cons_of_pos hpx, List.take_succ_cons, ih, List.filter_cons_of_pos hpx]
    | false =>
      have hnone : ∀ y ∈ x :: l, ¬ p y = true := by
        intro y hy hpy
        rcases List.mem_cons.mp hy with rfl | hy
        · exact Bool.false_ne_true (hpx.symm.trans hpy)
        · exact Bool.false_ne_true (hpx.symm.trans (hp x y (hx y hy) hpy))
      rw [List.countP_eq_zero.mpr hnone, List.filter_eq_nil_iff.mpr hnone]
      rfl

/-! ## Where no tie crosses a boundary -/

section Arranged

variable (horder : IsOrder leq)

include horder

/-- Rows can be arranged. -/
theorem IsOrder.exists_arranges (rows : List α) : ∃ l, Arranges leq rows l := by
  refine ⟨rows.mergeSort leq, List.mergeSort_perm rows leq, ?_⟩
  refine List.pairwise_mergeSort (fun x y z => horder.trans x y z) (fun x y => ?_) rows
  exact (Bool.or_eq_true _ _).mpr (horder.total x y)

/-- Rows are arranged by their places. -/
theorem Arranges.leq_of_le (h : Arranges leq rows l) {i j : Nat} (hij : i ≤ j)
    (hi : l[i]? = some x) (hj : l[j]? = some y) : leq x y = true := by
  obtain ⟨hlt, rfl⟩ := List.getElem?_eq_some_iff.mp hi
  obtain ⟨hlt', rfl⟩ := List.getElem?_eq_some_iff.mp hj
  rcases Nat.eq_or_lt_of_le hij with rfl | hij
  · exact (horder.total _ _).elim id id
  · exact List.pairwise_iff_getElem.mp h.sorted i j hlt hlt' hij

/-- What comes before a boundary that no tie crosses is the same in every arrangement. -/
theorem take_perm {b : Nat} (h : Arranges leq rows l) (h' : Arranges leq rows l')
    (hclean : ∀ i j x y, i < b → b ≤ j → l[i]? = some x → l[j]? = some y → leq y x = false) :
    (l.take b).Perm (l'.take b) := by
  have hperm : l.Perm l' := h.perm.trans h'.perm.symm
  rcases Nat.eq_zero_or_pos b with rfl | hpos
  · exact .refl _
  cases hc : l[b - 1]? with
  | none =>
    have hlen : l.length ≤ b := by
      have := List.getElem?_eq_none_iff.mp hc
      omega
    rw [List.take_of_length_le hlen, List.take_of_length_le (hperm.length_eq ▸ hlen)]
    exact hperm
  | some c =>
    let p := fun x => leq x c
    have hdown : ∀ x y, leq x y = true → p y = true → p x = true :=
      fun x y hxy hy => horder.trans x y c hxy hy
    have hbefore : (l.take b).countP p = (l.take b).length := by
      refine List.countP_eq_length.mpr fun x hx => ?_
      obtain ⟨i, hi⟩ := List.mem_iff_getElem?.mp hx
      have hlt : i < b := by
        by_contra hge
        rw [List.getElem?_take_eq_none (Nat.le_of_not_lt hge)] at hi
        cases hi
      rw [List.getElem?_take_of_lt hlt] at hi
      exact h.leq_of_le horder (Nat.le_sub_one_of_lt hlt) hi hc
    have hafter : (l.drop b).countP p = 0 := by
      refine List.countP_eq_zero.mpr fun y hy => ?_
      obtain ⟨j, hj⟩ := List.mem_iff_getElem?.mp hy
      rw [List.getElem?_drop] at hj
      have := hclean (b - 1) (b + j) c y (Nat.sub_one_lt_of_lt hpos) (Nat.le_add_right b j) hc hj
      exact Bool.eq_false_iff.mp this
    have hcount : l.countP p = b := by
      have hlt : b - 1 < l.length := (List.getElem?_eq_some_iff.mp hc).1
      calc l.countP p
        _ = (l.take b ++ l.drop b).countP p := by rw [List.take_append_drop]
        _ = (l.take b).length := by rw [List.countP_append, hbefore, hafter, Nat.add_zero]
        _ = b := List.length_take_of_le (by omega)
    have hl : l.take b = l.filter p := hcount ▸ take_countP h.sorted hdown
    have hl' : l'.take b = l'.filter p :=
      ((hperm.countP_eq p).symm.trans hcount) ▸ take_countP h'.sorted hdown
    rw [hl, hl']
    exact hperm.filter p

/-- A page is the same in every arrangement. -/
theorem page_perm (hties : TiesTogether leq size rows) (hsize : 0 < size)
    (h : Arranges leq rows l) (h' : Arranges leq rows l') (k : Nat) :
    (page size k l).Perm (page size k l') := by
  have hclean : ∀ k i j x y, i < k * size → k * size ≤ j → l[i]? = some x → l[j]? = some y →
      leq y x = false := by
    intro k i j x y hi hj hx hy
    refine Bool.eq_false_iff.mpr fun hyx => ?_
    have hxy := h.leq_of_le horder (Nat.le_trans (Nat.le_of_lt hi) hj) hx hy
    have hsame := hties l h i j x y hx hy hxy hyx
    have hik : i / size < k := (Nat.div_lt_iff_lt_mul hsize).mpr hi
    have hkj : k ≤ j / size := (Nat.le_div_iff_mul_le hsize).mpr hj
    omega
  have hbefore := take_perm horder h h' (hclean k)
  have hupto := take_perm horder h h' (hclean (k + 1))
  rw [Nat.succ_mul, List.take_add, List.take_add] at hupto
  exact (List.perm_append_left_iff _).mp (hupto.trans (hbefore.symm.append_right _))

end Arranged

/-! ## Where a tie crosses a boundary -/

/-- Two neighbours that tie change places. -/
theorem Arranges.swap {l₁ l₂ : List α} (h : Arranges leq rows (l₁ ++ x :: y :: l₂))
    (hyx : leq y x = true) : Arranges leq rows (l₁ ++ y :: x :: l₂) where
  perm := ((List.Perm.swap x y l₂).append_left l₁).trans h.perm
  sorted := by
    obtain ⟨h₁, h₂, hcross⟩ := List.pairwise_append.mp h.sorted
    obtain ⟨hx, hrest⟩ := List.pairwise_cons.mp h₂
    obtain ⟨hy, h₃⟩ := List.pairwise_cons.mp hrest
    refine List.pairwise_append.mpr ⟨h₁, ?_, fun z hz w hw => hcross z hz w ?_⟩
    · refine List.pairwise_cons.mpr ⟨fun z hz => ?_, List.pairwise_cons.mpr ⟨fun z hz => ?_, h₃⟩⟩
      · rcases List.mem_cons.mp hz with rfl | hz
        · exact hyx
        · exact hy z hz
      · exact hx z (List.mem_cons_of_mem y hz)
    · exact (List.Perm.swap x y l₂).mem_iff.mp hw

/-- A list at two neighbouring places. -/
theorem exists_neighbours {i : Nat} (hx : l[i]? = some x) (hy : l[i + 1]? = some y) :
    ∃ l₁ l₂, l = l₁ ++ x :: y :: l₂ ∧ l₁.length = i := by
  obtain ⟨hlt, rfl⟩ := List.getElem?_eq_some_iff.mp hx
  obtain ⟨hlt', rfl⟩ := List.getElem?_eq_some_iff.mp hy
  refine ⟨l.take i, l.drop (i + 2), ?_, List.length_take_of_le (Nat.le_of_lt hlt)⟩
  rw [← List.drop_eq_getElem_cons hlt', ← List.drop_eq_getElem_cons hlt, List.take_append_drop]

/-- A row has one place. -/
theorem Arranges.place (h : Arranges leq rows l) (hnodup : rows.Nodup) {i j : Nat}
    (hi : l[i]? = some x) (hj : l[j]? = some x) : i = j :=
  (List.getElem?_inj (List.getElem?_eq_some_iff.mp hi).1 (h.perm.nodup_iff.mpr hnodup)).mp
    (hi.trans hj.symm)

/-- The row before a boundary is lost when the page that ends there takes the tied row after it. -/
theorem lost_row (hnodup : rows.Nodup) (hsize : 0 < size) {l₁ l₂ : List α}
    (h : Arranges leq rows (l₁ ++ x :: y :: l₂)) (hyx : leq y x = true)
    (hlength : l₁.length + 1 = (k + 1) * size) (j : Nat) :
    x ∉ if j = k then page size j (l₁ ++ y :: x :: l₂)
      else page size j (l₁ ++ x :: y :: l₂) := by
  have hplace : (l₁ ++ x :: y :: l₂)[l₁.length]? = some x := by simp
  have hplace' : (l₁ ++ y :: x :: l₂)[l₁.length + 1]? = some x := by simp
  split
  case isTrue hjk =>
    intro hx
    obtain ⟨i, hi, hget⟩ := (mem_page hsize).mp hx
    obtain rfl := (h.swap hyx).place hnodup hget hplace'
    rw [hlength, Nat.mul_div_cancel _ hsize] at hi
    omega
  case isFalse hjk =>
    intro hx
    obtain ⟨i, hi, hget⟩ := (mem_page hsize).mp hx
    obtain rfl := h.place hnodup hget hplace
    refine hjk (hi.symm.trans ?_)
    rw [Nat.div_eq_iff hsize]
    rw [Nat.succ_mul] at hlength
    omega

/-- The pages hold every row once, whatever arrangement each of them is cut from, exactly where
rows that tie are on one page. -/
theorem pages_perm_iff (horder : IsOrder leq) (hnodup : rows.Nodup) (hsize : 0 < size)
    (hn : ∀ k, k < n ↔ k * size < rows.length) :
    (∀ pages : Nat → List α,
      (∀ k < n, ∃ l, Arranges leq rows l ∧ pages k = page size k l) →
        ((List.range n).flatMap pages).Perm rows) ↔
      TiesTogether leq size rows := by
  constructor
  · intro hpages l hl
    -- a tie that crosses a boundary crosses it between two neighbours
    have hnot : ∀ (i j : Nat) x y, l[i]? = some x → l[j]? = some y → leq y x = true →
        ¬ i / size < j / size := by
      intro i j x y hi hj hyx hlt
      obtain ⟨b, hb⟩ : ∃ b, b + 1 = (i / size + 1) * size :=
        ⟨_, Nat.sub_add_cancel (Nat.mul_pos (Nat.succ_pos _) hsize)⟩
      have hib : i < b + 1 := hb ▸ (Nat.div_lt_iff_lt_mul hsize).mp (Nat.lt_succ_self _)
      have hbj : b + 1 ≤ j := hb ▸ (Nat.le_div_iff_mul_le hsize).mp hlt
      have hbl : b + 1 < l.length := Nat.lt_of_le_of_lt hbj (List.getElem?_eq_some_iff.mp hj).1
      obtain ⟨x', hx'⟩ : ∃ x', l[b]? = some x' :=
        ⟨_, List.getElem?_eq_getElem (Nat.lt_of_succ_lt hbl)⟩
      obtain ⟨y', hy'⟩ : ∃ y', l[b + 1]? = some y' := ⟨_, List.getElem?_eq_getElem hbl⟩
      have hyx' : leq y' x' = true := by
        have hle := hl.leq_of_le horder hbj hy' hj
        have hle' := hl.leq_of_le horder (Nat.le_of_lt_succ hib) hi hx'
        exact horder.trans _ _ _ (horder.trans _ _ _ hle hyx) hle'
      obtain ⟨l₁, l₂, rfl, hl₁⟩ := exists_neighbours hx' hy'
      have hperm := hpages (fun k => if k = i / size then page size k (l₁ ++ y' :: x' :: l₂)
        else page size k (l₁ ++ x' :: y' :: l₂)) fun k _ => by
          split
          · exact ⟨_, hl.swap hyx', rfl⟩
          · exact ⟨_, hl, rfl⟩
      have hmem : x' ∈ rows := hl.perm.mem_iff.mp (List.mem_of_getElem? hx')
      obtain ⟨k, -, hk⟩ := List.mem_flatMap.mp (hperm.mem_iff.mpr hmem)
      exact lost_row hnodup hsize hl hyx' (hl₁ ▸ hb) k hk
    intro i j x y hi hj hxy hyx
    rcases Nat.lt_trichotomy (i / size) (j / size) with hlt | heq | hlt
    · exact absurd hlt (hnot i j x y hi hj hyx)
    · exact heq
    · exact absurd hlt (hnot j i y x hj hi hxy)
  · intro hties pages hpages
    rcases Nat.eq_zero_or_pos n with rfl | hpos
    · have hnil : rows.length = 0 := by
        have := mt (hn 0).mpr (Nat.lt_irrefl 0)
        omega
      rw [List.length_eq_zero_iff.mp hnil]
      exact .refl _
    · obtain ⟨l, hl, -⟩ := hpages 0 hpos
      have hall : l.length ≤ n * size := by
        have := mt (hn n).mpr (Nat.lt_irrefl n)
        rw [hl.perm.length_eq]
        omega
      have hsame : ∀ k ∈ List.range n, (pages k).Perm (page size k l) := by
        intro k hk
        obtain ⟨l', hl', hpage⟩ := hpages k (List.mem_range.mp hk)
        rw [hpage]
        exact page_perm horder hties hsize hl' hl k
      have htake := List.Perm.flatMap_left (List.range n) hsame
      rw [flatMap_page, List.take_of_length_le hall] at htake
      exact htake.trans hl.perm

end InvoiceHub.Query
