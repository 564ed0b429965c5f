import InvoiceHub.Cache.Lists
import InvoiceHub.Query.Paging
import Mathlib.Data.Rat.Floor
import Mathlib.Algebra.Order.Field.Basic

/-!
# The pages of `queryResults`

Every page is a query of its own, which the database answers in any order that the ORDER BY clause
allows.
-/

namespace InvoiceHub.Query

open Cache

/-- The database behind TypeORM, for the rows of an entity. -/
structure Sql (Row : Type) where
  /-- The rows that a condition selects, with its parameters. -/
  selects : String → List (String × Json) → Row → Bool
  /-- The ORDER BY clause that TypeORM makes of what it is given. -/
  orderBy : String × String → Row → Row → Bool
  isOrder : ∀ clause, IsOrder (orderBy clause)
  /-- The number of rows that LIMIT and OFFSET take a number for. -/
  bigint : Rat → Nat
  bigint_natCast : ∀ n : Nat, bigint n = n
  /-- The total, of `take`, `skip`, the rows on the page and those that match. -/
  count : Rat → Rat → Nat → Nat → Rat
  count_natCast : ∀ take skip matching : Nat, 0 < take →
    count take skip (min take (matching - skip)) matching = matching

namespace Sql

variable {Row : Type} (sql : Sql Row)

/-- The rows that match. -/
def matching (query : QueryBuilder) (table : List Row) : List Row :=
  match query.condition with
  | none => table
  | some (condition, parameters) => table.filter (sql.selects condition parameters)

/-- What `getManyAndCount` may return. -/
def MayReturn (query : QueryBuilder) (table items : List Row) (total : Rat) : Prop :=
  (∃ rows, Arranges (sql.orderBy query.addOrderBy) (sql.matching query table) rows ∧
    items = (rows.drop (sql.bigint query.skip)).take (sql.bigint query.take)) ∧
  total = sql.count query.take query.skip items.length (sql.matching query table).length

end Sql

/-- The query for a page; pages are counted from 0 here. -/
def pageQuery (query : GetQueryResultsArgs) (k : Nat) : GetQueryResultsArgs :=
  { query with page := some (k + 1) }

/-- `Math.ceil(total / limit)`. -/
def pageCount (query : GetQueryResultsArgs) (total : Rat) : Nat :=
  ⌈total / query.limit.getD 10⌉₊

/-- The pages of a query hold every matching row exactly once, whatever the database returns and
whichever page is asked for the total. -/
def Partitions {Row : Type} (sql : Sql Row) (query : GetQueryResultsArgs) (table : List Row) :
    Prop :=
  ∀ (items : Nat → List Row) (total : Rat),
    (∃ k rows, sql.MayReturn (queryBuilder (pageQuery query k)) table rows total) →
    (∀ k < pageCount query total,
      ∃ total, sql.MayReturn (queryBuilder (pageQuery query k)) table (items k) total) →
    ((List.range (pageCount query total)).flatMap items).Perm
      (sql.matching (queryBuilder query) table)

section Whole

variable {Row : Type} {sql : Sql Row} {query : GetQueryResultsArgs} {table items : List Row}
  {total : Rat} {limit k n : Nat}

theorem lt_pageCount (hlimit : query.limit.getD 10 = limit) (hpos : 0 < limit) :
    k < pageCount query n ↔ k * limit < n := by
  unfold pageCount
  rw [hlimit, Nat.lt_ceil, lt_div_iff₀ (Nat.cast_pos.mpr hpos)]
  norm_cast

/-- With a whole limit, a page is cut out of an arrangement of the matching rows, and the total is
their number. -/
theorem mayReturn_iff (hlimit : query.limit.getD 10 = limit) (hpos : 0 < limit) :
    sql.MayReturn (queryBuilder (pageQuery query k)) table items total ↔
      (∃ rows, Arranges (sql.orderBy (queryBuilder query).addOrderBy)
        (sql.matching (queryBuilder query) table) rows ∧ items = page limit k rows) ∧
      total = (sql.matching (queryBuilder query) table).length := by
  have htake : (queryBuilder (pageQuery query k)).take = limit := hlimit
  have hskip : (queryBuilder (pageQuery query k)).skip = ((k * limit : Nat) : ℚ) := by
    show ((k : ℚ) + 1 - 1) * query.limit.getD 10 = _
    rw [hlimit, add_sub_cancel_right, Nat.cast_mul]
  unfold Sql.MayReturn page
  rw [htake, hskip, sql.bigint_natCast, sql.bigint_natCast]
  refine and_congr_right ?_
  rintro ⟨rows, hrows, rfl⟩
  have hlength : ((rows.drop (k * limit)).take limit).length =
      min limit ((sql.matching (queryBuilder query) table).length - k * limit) := by
    rw [List.length_take, List.length_drop, hrows.perm.length_eq]
    rfl
  rw [hlength]
  exact Eq.congr_right (sql.count_natCast _ _ _ hpos)

/-- With a whole limit, the pages of a query hold every matching row exactly once, whatever order
the database returns them in, exactly where rows that the ORDER BY clause leaves tied are on one
page. -/
theorem partitions_iff (hnodup : table.Nodup) (hlimit : query.limit.getD 10 = limit)
    (hpos : 0 < limit) :
    Partitions sql query table ↔
      TiesTogether (sql.orderBy (queryBuilder query).addOrderBy) limit
        (sql.matching (queryBuilder query) table) := by
  have hmatching : (sql.matching (queryBuilder query) table).Nodup := by
    unfold Sql.matching
    split
    · exact hnodup
    · exact hnodup.filter _
  rw [← pages_perm_iff (sql.isOrder _) hmatching hpos fun _ => lt_pageCount hlimit hpos]
  unfold Partitions
  simp only [mayReturn_iff hlimit hpos]
  constructor
  · intro h pages hpages
    obtain ⟨rows, hrows⟩ := (sql.isOrder (queryBuilder query).addOrderBy).exists_arranges
      (sql.matching (queryBuilder query) table)
    exact h pages _ ⟨0, _, ⟨rows, hrows, rfl⟩, rfl⟩ fun k hk => ⟨_, hpages k hk, rfl⟩
  · rintro h items total ⟨_, _, _, rfl⟩ hitems
    refine h items fun k hk => ?_
    obtain ⟨_, hpage, _⟩ := hitems k hk
    exact hpage

end Whole

/-- `lazyCount` of TypeORM: rows are counted where the page is full, or empty after others. -/
def lazyCount (take skip : Rat) (items matching : Nat) : Rat :=
  if items = take ∨ (items = 0 ∧ 0 < skip) then matching else items + skip

theorem lazyCount_natCast (take skip matching : Nat) :
    lazyCount take skip (min take (matching - skip)) matching = matching := by
  unfold lazyCount
  split
  case isTrue => rfl
  case isFalse h =>
    rw [Nat.cast_inj, Nat.cast_pos] at h
    norm_cast
    omega

/-- PostgreSQL over rows with an id and a column to order by. -/
def postgres : Sql (Nat × Nat) where
  selects _ _ _ := true
  orderBy _ x y := x.2 ≤ y.2
  isOrder _ :=
    { total := fun x y => (Nat.le_total x.2 y.2).imp decide_eq_true decide_eq_true
      trans := fun _ _ _ h h' =>
        decide_eq_true (Nat.le_trans (of_decide_eq_true h) (of_decide_eq_true h')) }
  -- a number that is not whole is rounded to the nearest one, halves upwards
  bigint r := ⌊r + 1 / 2⌋₊
  bigint_natCast n := by
    rw [Nat.floor_eq_iff (by positivity)]
    constructor <;> norm_num
  count := lazyCount
  count_natCast take skip matching _ := lazyCount_natCast take skip matching

/-- The first `k` rows, created one after the other. -/
def createdRows (k : Nat) : List (Nat × Nat) :=
  (List.range k).map fun i => (i, i)

theorem partitions_iff_three :
    Partitions postgres { limit := some 2 } (createdRows 3) ↔
      TiesTogether (postgres.orderBy ("entity.createdAt", "DESC")) 2 (createdRows 3) := by
  have hlimit : ({ limit := some 2 } : GetQueryResultsArgs).limit.getD 10 = ((2 : Nat) : ℚ) := rfl
  exact partitions_iff (by decide) hlimit (by decide)

/-- What four pages of one and a half rows show of five rows. -/
def halves : Nat → List (Nat × Nat)
  | 0 => [(0, 0), (1, 1)]
  | 1 => [(2, 2), (3, 3)]
  | 2 => [(3, 3), (4, 4)]
  | _ => []

theorem halves_mayReturn {k : Nat} (hk : k < 4) :
    postgres.MayReturn (queryBuilder (pageQuery { limit := some (3 / 2) } k)) (createdRows 5)
      (halves k) (lazyCount (3 / 2) (k * (3 / 2)) (halves k).length 5) := by
  have hsorted : (createdRows 5).Pairwise fun x y => decide (x.2 ≤ y.2) = true := by decide
  have htake : ⌊(3 / 2 : ℚ) + 1 / 2⌋₊ = 2 := by norm_num
  have hoffset : (queryBuilder (pageQuery { limit := some (3 / 2) } k)).skip = k * (3 / 2) := by
    show ((k : ℚ) + 1 - 1) * (3 / 2) = _
    rw [add_sub_cancel_right]
  unfold Sql.MayReturn
  rw [hoffset]
  refine ⟨⟨createdRows 5, ⟨.refl _, hsorted⟩, ?_⟩, rfl⟩
  show _ = ((createdRows 5).drop ⌊(k : ℚ) * (3 / 2) + 1 / 2⌋₊).take ⌊(3 / 2 : ℚ) + 1 / 2⌋₊
  have hskip : ∀ n : Nat, (n : ℚ) ≤ k * (3 / 2) + 1 / 2 → (k : ℚ) * (3 / 2) + 1 / 2 < n + 1 →
      ⌊(k : ℚ) * (3 / 2) + 1 / 2⌋₊ = n :=
    fun n hle hlt => (Nat.floor_eq_iff (n.cast_nonneg.trans hle)).mpr ⟨hle, hlt⟩
  rw [htake]
  rcases k with _ | _ | _ | _ | k
  · rw [hskip 0 (by norm_num) (by norm_num)]
    rfl
  · rw [hskip 2 (by norm_num) (by norm_num)]
    rfl
  · rw [hskip 3 (by norm_num) (by norm_num)]
    rfl
  · rw [hskip 5 (by norm_num) (by norm_num)]
    rfl
  · omega

/-- Two rows that tie may both come first, and a page of one and a half rows is one of two
rows. -/
theorem pages_overlap :
    (¬ ∀ (sql : Sql (Nat × Nat)) query table (limit : Nat), table.Nodup →
      query.limit.getD 10 = (limit : ℚ) → 0 < limit → Partitions sql query table) ∧
    ¬ ∀ (sql : Sql (Nat × Nat)) query table, table.Nodup → 0 < query.limit.getD 10 →
      (∀ x ∈ table, ∀ y ∈ table, sql.orderBy (queryBuilder query).addOrderBy x y = true →
        sql.orderBy (queryBuilder query).addOrderBy y x = true → x = y) →
      Partitions sql query table := by
  constructor
  · intro h
    have hlimit : ({ limit := some 1 } : GetQueryResultsArgs).limit.getD 10 = ((1 : Nat) : ℚ) :=
      Nat.cast_one.symm
    have hcount : pageCount { limit := some 1 } ((2 : Nat) : ℚ) = 2 := by
      unfold pageCount
      norm_num
    have hpages := h postgres { limit := some 1 } [(0, 0), (1, 0)] 1 (by decide) hlimit
      (by decide) (fun _ => [(0, 0)]) (2 : Nat)
    simp only [mayReturn_iff hlimit Nat.one_pos] at hpages
    rw [hcount] at hpages
    have hfirst : Arranges (postgres.orderBy ("entity.createdAt", "DESC")) [(0, 0), (1, 0)]
        [(0, 0), (1, 0)] := ⟨.refl _, by decide⟩
    have hperm := hpages ⟨0, _, ⟨_, hfirst, rfl⟩, rfl⟩ fun k hk => by
      refine ⟨_, ?_, rfl⟩
      rcases k with _ | _ | k
      · exact ⟨_, hfirst, rfl⟩
      · exact ⟨[(1, 0), (0, 0)], ⟨.swap _ _ _, by decide⟩, rfl⟩
      · omega
    exact absurd hperm (by decide)
  · intro h
    have hcount : pageCount { limit := some (3 / 2) } 5 = 4 := by
      unfold pageCount
      rw [Nat.ceil_eq_iff (by decide)]
      constructor <;> norm_num
    have htotal : lazyCount (3 / 2) ((3 : Nat) * (3 / 2)) (halves 3).length 5 = 5 :=
      if_pos (.inr ⟨rfl, by norm_num⟩)
    have hpages := h postgres { limit := some (3 / 2) } (createdRows 5) (by decide)
      (by norm_num) (by decide) halves 5
    rw [hcount] at hpages
    have hperm := hpages ⟨3, _, htotal ▸ halves_mayReturn (by decide)⟩
      fun k hk => ⟨_, halves_mayReturn hk⟩
    exact absurd hperm (by decide)

end InvoiceHub.Query
