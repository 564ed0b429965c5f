import InvoiceHub.Query.Pages

/-!
# What a request can put into the SQL text

`queryResults` writes the keys of `filters` and the first key of `order` into the text as they
are; only the values are bound as parameters.
-/

namespace InvoiceHub.Query

open Cache

/-! ## The WHERE text -/

/-- A letter or an underscore, then letters, digits and underscores. -/
def isIdentifier (name : String) : Bool :=
  match name.toList with
  | [] => false
  | c :: rest => (c.isAlpha || c == '_') && rest.all fun c => c.isAlphanum || c == '_'

/-- The comparison of one column. -/
def comparison (key : String) : String :=
  "entity." ++ key ++ " = :" ++ key

/-- A conjunction of comparisons. -/
def whereText (keys : List String) : String :=
  " AND ".intercalate (keys.map comparison)

theorem isIdentifier_space {name : String} (h : isIdentifier name = true) : ' ' ∉ name.toList := by
  intro hmem
  unfold isIdentifier at h
  split at h
  · cases h
  · rename_i c rest hname
    rw [hname] at hmem
    obtain ⟨hc, hrest⟩ := Bool.and_eq_true_iff.mp h
    rcases List.mem_cons.mp hmem with rfl | hmem
    · revert hc
      decide
    · have := List.all_eq_true.mp hrest ' ' hmem
      revert this
      decide

theorem toList_comparison (key : String) :
    (comparison key).toList =
      "entity.".toList ++ (key.toList ++ ' ' :: ("= :".toList ++ key.toList)) := by
  simp [comparison]

theorem toList_whereText_cons {key : String} {keys : List String} (h : keys ≠ []) :
    (whereText (key :: keys)).toList =
      (comparison key).toList ++ (" AND ".toList ++ (whereText keys).toList) := by
  unfold whereText
  rw [List.map_cons, String.intercalate_cons_of_ne_nil (mt List.map_eq_nil_iff.mp h),
    String.toList_append, String.toList_append, List.append_assoc]

/-- Two texts that go on with a space are the same up to their first spaces. -/
theorem append_space_inj {xs ys us vs : List Char} (hx : ' ' ∉ xs) (hy : ' ' ∉ ys)
    (h : xs ++ ' ' :: us = ys ++ ' ' :: vs) : xs = ys ∧ us = vs := by
  induction xs generalizing ys with
  | nil =>
    cases ys with
    | nil => exact ⟨rfl, (List.cons.inj h).2⟩
    | cons y ys => exact absurd ((List.cons.inj h).1 ▸ List.mem_cons_self) hy
  | cons x xs ih =>
    cases ys with
    | nil => exact absurd ((List.cons.inj h).1 ▸ List.mem_cons_self) hx
    | cons y ys =>
      obtain ⟨rfl, hrest⟩ := List.cons.inj h
      obtain ⟨rfl, rfl⟩ := ih (List.not_mem_of_not_mem_cons hx) (List.not_mem_of_not_mem_cons hy)
        hrest
      exact ⟨rfl, rfl⟩

theorem count_comparison (key : String) :
    (comparison key).toList.count ' ' = 2 + 2 * key.toList.count ' ' := by
  rw [toList_comparison, List.count_append, List.count_append, List.count_cons, List.count_append,
    show "entity.".toList.count ' ' = 0 by decide, show "= :".toList.count ' ' = 1 by decide]
  simp
  omega

/-- A conjunction has the spaces that its comparisons need, and those of its keys twice. -/
theorem count_whereText (keys : List String) (h : keys ≠ []) :
    (whereText keys).toList.count ' ' + 2 =
      4 * keys.length + 2 * (keys.map fun key => key.toList.count ' ').sum := by
  induction keys with
  | nil => exact absurd rfl h
  | cons key keys ih =>
    cases keys with
    | nil =>
      simp only [whereText, List.map_cons, List.map_nil, String.intercalate_singleton,
        count_comparison]
      simp
      omega
    | cons key' keys =>
      have ih := ih (List.cons_ne_nil _ _)
      rw [toList_whereText_cons (List.cons_ne_nil _ _), List.count_append, List.count_append,
        count_comparison, show " AND ".toList.count ' ' = 2 by decide]
      simp only [List.map_cons, List.sum_cons, List.length_cons] at ih ⊢
      omega

theorem comparison_inj {key key' : String} {us vs : List Char} (hkey : ' ' ∉ key.toList)
    (hkey' : ' ' ∉ key'.toList)
    (h : (comparison key).toList ++ us = (comparison key').toList ++ vs) : key = key' ∧ us = vs := by
  rw [toList_comparison, toList_comparison, List.append_assoc, List.append_assoc,
    List.append_assoc, List.append_assoc] at h
  obtain ⟨heq, hrest⟩ := append_space_inj hkey hkey' (List.append_cancel_left h)
  obtain rfl := String.toList_inj.mp heq
  exact ⟨rfl, by simpa using hrest⟩

/-- A conjunction over keys without spaces tells its keys. -/
theorem whereText_inj {keys keys' : List String} (hkeys : ∀ key ∈ keys, ' ' ∉ key.toList)
    (hkeys' : ∀ key ∈ keys', ' ' ∉ key.toList) (hlength : keys.length = keys'.length)
    (h : whereText keys = whereText keys') : keys = keys' := by
  induction keys generalizing keys' with
  | nil => exact (List.length_eq_zero_iff.mp hlength.symm).symm
  | cons key keys ih =>
    cases keys' with
    | nil => cases hlength
    | cons key' keys' =>
      replace hlength : keys.length = keys'.length := Nat.succ.inj hlength
      have hkey := hkeys key List.mem_cons_self
      have hkey' := hkeys' key' List.mem_cons_self
      rcases eq_or_ne keys [] with rfl | hne
      · obtain rfl := List.length_eq_zero_iff.mp hlength.symm
        have hlist : (comparison key).toList ++ [] = (comparison key').toList ++ [] := by
          simpa only [whereText, List.map_cons, List.map_nil, String.intercalate_singleton,
            List.append_nil] using congrArg String.toList h
        rw [(comparison_inj hkey hkey' hlist).1]
      · have hne' : keys' ≠ [] := by
          rintro rfl
          exact hne (List.length_eq_zero_iff.mp hlength)
        have hlist := congrArg String.toList h
        rw [toList_whereText_cons hne, toList_whereText_cons hne'] at hlist
        obtain ⟨rfl, hrest⟩ := comparison_inj hkey hkey' hlist
        rw [ih (fun k hk => hkeys k (List.mem_cons_of_mem _ hk))
          (fun k hk => hkeys' k (List.mem_cons_of_mem _ hk)) hlength
          (String.toList_inj.mp (List.append_cancel_left hrest))]

/-- A text over as many keys as identifiers that it conjoins is over these identifiers. -/
theorem whereText_identifiers {keys names : List String} (hlength : names.length = keys.length)
    (hnames : ∀ name ∈ names, isIdentifier name = true) (h : whereText keys = whereText names) :
    keys = names := by
  rcases eq_or_ne keys [] with rfl | hne
  · exact (List.length_eq_zero_iff.mp hlength).symm
  have hne' : names ≠ [] := by
    rintro rfl
    exact hne (List.length_eq_zero_iff.mp hlength.symm)
  have hspace : ∀ name ∈ names, ' ' ∉ name.toList :=
    fun name hmem => isIdentifier_space (hnames name hmem)
  -- the keys have no space, since the comparisons alone need all there are
  have hkeys : ∀ key ∈ keys, ' ' ∉ key.toList := by
    have hnone : (names.map fun name => name.toList.count ' ').sum = 0 :=
      List.sum_eq_zero_iff_forall_eq_nat.mpr fun n hn => by
        obtain ⟨name, hmem, rfl⟩ := List.mem_map.mp hn
        exact List.count_eq_zero.mpr (hspace name hmem)
    have hcount := count_whereText keys hne
    rw [h, count_whereText names hne', hlength, hnone] at hcount
    have hsum : (keys.map fun key => key.toList.count ' ').sum = 0 := by omega
    intro key hmem
    exact List.count_eq_zero.mp (List.sum_eq_zero_iff_forall_eq_nat.mp hsum _
      (List.mem_map_of_mem (f := fun key : String => key.toList.count ' ') hmem))
  exact whereText_inj hkeys hspace hlength.symm h

/-! ## The query -/

/-- The column that `queryResults` orders by. -/
def orderField (query : GetQueryResultsArgs) : String :=
  (((query.order.getD []).head?).getD ("createdAt", "DESC")).1

/-- The WHERE text is a conjunction of one comparison of an identifier for each filter, and the
ORDER BY expression is that of an identifier. -/
structure NoSmuggling (query : GetQueryResultsArgs) : Prop where
  condition : ∀ text parameters, (queryBuilder query).condition = some (text, parameters) →
    ∃ names : List String, names.length = (query.filters.getD []).length ∧
      (∀ name ∈ names, isIdentifier name = true) ∧ text = whereText names
  orderBy : ∃ name, isIdentifier name = true ∧
    (queryBuilder query).addOrderBy.1 = "entity." ++ name

/-- Every key that reaches the text is an identifier. -/
structure Identifiers (query : GetQueryResultsArgs) : Prop where
  filters : ∀ filter ∈ query.filters.getD [], isIdentifier filter.1 = true
  order : isIdentifier (orderField query) = true

theorem condition_eq {query : GetQueryResultsArgs} (h : query.filters.getD [] ≠ []) :
    (queryBuilder query).condition =
      some (whereText ((query.filters.getD []).map Prod.fst), query.filters.getD []) := by
  show (if query.filters.getD [] ≠ [] then some _ else none) = _
  rw [if_pos h, whereText, List.map_map]
  rfl

/-- The conjunction is that of the keys only where these are identifiers themselves. -/
theorem noSmuggling_iff (query : GetQueryResultsArgs) : NoSmuggling query ↔ Identifiers query := by
  constructor
  · rintro ⟨hcondition, name, hname, horder⟩
    constructor
    · rcases eq_or_ne (query.filters.getD []) [] with hnil | hne
      · rw [hnil]
        exact fun _ hmem => absurd hmem List.not_mem_nil
      · obtain ⟨names, hlength, hnames, htext⟩ := hcondition _ _ (condition_eq hne)
        have hkeys := whereText_identifiers (hlength.trans (List.length_map _).symm) hnames htext
        exact fun filter hmem => hnames _ (hkeys ▸ List.mem_map_of_mem hmem)
    · have heq : "entity." ++ orderField query = "entity." ++ name := horder
      rw [String.append_right_inj] at heq
      exact heq ▸ hname
  · rintro ⟨hfilters, horder⟩
    refine ⟨fun text parameters h => ?_, orderField query, horder, rfl⟩
    rcases eq_or_ne (query.filters.getD []) [] with hnil | hne
    · have hnone : (queryBuilder query).condition = none := if_neg (not_not_intro hnil)
      rw [hnone] at h
      cases h
    · rw [condition_eq hne] at h
      cases h
      refine ⟨(query.filters.getD []).map Prod.fst, List.length_map _, fun name hmem => ?_, rfl⟩
      obtain ⟨filter, hfilter, rfl⟩ := List.mem_map.mp hmem
      exact hfilters filter hfilter

/-! ## The rows -/

section Rows

variable {Row : Type} (sql : Sql Row) (equals : Row → String → Json → Bool)

/-- The database takes a conjunction of comparisons of identifiers, each with its own parameter,
for what it is. -/
def Compares : Prop :=
  ∀ filters : List (String × Json), filters ≠ [] →
    (∀ filter ∈ filters, isIdentifier filter.1 = true) → ∀ row,
    sql.selects (whereText (filters.map Prod.fst)) filters row =
      filters.all fun filter => equals row filter.1 filter.2

/-- The rows selected are those whose columns equal every filter value. -/
def SelectsEqual (query : GetQueryResultsArgs) : Prop :=
  ∀ table row, row ∈ sql.matching (queryBuilder query) table ↔
    row ∈ table ∧ ∀ filter ∈ query.filters.getD [], equals row filter.1 filter.2 = true

variable {sql equals} {query : GetQueryResultsArgs}

theorem selectsEqual (hsql : Compares sql equals) (h : Identifiers query) :
    SelectsEqual sql equals query := by
  intro table row
  unfold Sql.matching
  rcases eq_or_ne (query.filters.getD []) [] with hnil | hne
  · have hnone : (queryBuilder query).condition = none := if_neg (not_not_intro hnil)
    rw [hnone, hnil]
    exact (and_iff_left fun _ hmem => absurd hmem List.not_mem_nil).symm
  · rw [condition_eq hne]
    dsimp only
    rw [List.mem_filter, hsql _ hne h.filters, List.all_eq_true]

/-- The text that reaches the database is a conjunction of one comparison for each filter, and the
rows are those that equal the filters, exactly where every key is an identifier. -/
theorem smuggles_nothing_iff (hsql : Compares sql equals) :
    NoSmuggling query ∧ SelectsEqual sql equals query ↔ Identifiers query :=
  ⟨fun h => (noSmuggling_iff query).mp h.1,
    fun h => ⟨(noSmuggling_iff query).mpr h, selectsEqual hsql h⟩⟩

end Rows

/-- The one column of a row is its status. -/
def equalsStatus (status : String) (column : String) (value : Json) : Bool :=
  column == "status" && Json.str? (some value) == some status

/-- A table of statuses; the order does not matter. -/
def statusTable : Sql String where
  selects _ parameters status := parameters.all fun filter => equalsStatus status filter.1 filter.2
  orderBy _ _ _ := true
  isOrder _ := ⟨fun _ _ => .inl rfl, fun _ _ _ _ _ => rfl⟩
  bigint r := ⌊r⌋₊
  bigint_natCast := Nat.floor_natCast
  count := lazyCount
  count_natCast take skip matching _ := lazyCount_natCast take skip matching

/-- The orders that are pending. -/
def pendingOrders : GetQueryResultsArgs where
  filters := some [("status", .str "PENDING")]

theorem smuggles_nothing_pending :
    NoSmuggling pendingOrders ∧ SelectsEqual statusTable equalsStatus pendingOrders ↔
      Identifiers pendingOrders :=
  smuggles_nothing_iff fun _ _ _ _ => rfl

/-- An order by a text that is no column. -/
def commentOrder : GetQueryResultsArgs where
  order := some [("id IS NOT NULL --", "ASC")]

theorem order_key_smuggled : ¬ ∀ query : GetQueryResultsArgs, NoSmuggling query := by
  intro h
  have hkey : isIdentifier (orderField commentOrder) = true :=
    ((noSmuggling_iff commentOrder).mp (h commentOrder)).order
  revert hkey
  decide

end InvoiceHub.Query
