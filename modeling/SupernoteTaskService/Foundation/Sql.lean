import SupernoteTaskService.Foundation.KeyedTable

/-!
# Statements with placeholders

A small part of SQL, over rows that give each column a value.  The values of the placeholders
come in one list, and each fragment of a statement takes its own from the front of those that
are left.  A comparison with NULL is unknown; `WHERE` keeps the rows on which the conjunction
of its conditions is true.
-/

set_option autoImplicit false

namespace SupernoteTaskService.Foundation

/-! ## Values by position -/

section Binding
variable {φ ν β : Type} (take : φ → List ν → Option (β × List ν))

def takeEach : List φ → List ν → Option (List β × List ν)
  | [], params => some ([], params)
  | fragment :: fragments, params => do
      let (bound, rest) ← take fragment params
      let (more, rest) ← takeEach fragments rest
      return (bound :: more, rest)

def Takes (fragments : List φ) (params : List ν) (bound : List β) : Prop :=
  ∀ rest, takeEach take fragments (params ++ rest) = some (bound, rest)

variable {take}

theorem takes_nil : Takes take [] [] [] := by
  intro rest
  rfl

theorem takes_single {fragment : φ} {params : List ν} {bound : β}
    (taken : ∀ rest : List ν, take fragment (params ++ rest) = some (bound, rest)) :
    Takes take [fragment] params [bound] := by
  intro rest
  simp only [takeEach, taken, Option.bind_eq_bind, Option.bind_some, pure]

theorem takeEach_append {fragments more : List φ} {params rest : List ν} {bound : List β}
    (first : takeEach take fragments params = some (bound, rest)) :
    takeEach take (fragments ++ more) params =
      (takeEach take more rest).map fun later => (bound ++ later.1, later.2) := by
  induction fragments generalizing params bound with
  | nil =>
      simp only [takeEach, Option.some.injEq, Prod.mk.injEq] at first
      obtain ⟨rfl, rfl⟩ := first
      simp only [List.nil_append, Prod.mk.eta, Option.map_id']
  | cons fragment fragments ih =>
      simp only [takeEach, Option.bind_eq_bind, Option.bind_eq_some_iff, pure, Option.some.injEq,
        Prod.exists, Prod.mk.injEq] at first
      obtain ⟨head, afterHead, taken, tail, afterTail, takenTail, rfl, rfl⟩ := first
      simp only [List.cons_append, takeEach, taken, Option.bind_eq_bind, Option.bind_some,
        ih takenTail]
      cases takeEach take more afterTail with
      | none => rfl
      | some later => rfl

theorem Takes.append {fragments more : List φ} {params params' : List ν} {bound bound' : List β}
    (first : Takes take fragments params bound) (second : Takes take more params' bound') :
    Takes take (fragments ++ more) (params ++ params') (bound ++ bound') := by
  intro rest
  rw [List.append_assoc, takeEach_append (first _), second, Option.map_some]

end Binding

/-! ## Conditions -/

/-- The columns of a table: what can be stored in each, and the order of its values. -/
structure Schema (κ ν : Type) where
  null : ν
  admits : κ → ν → Bool
  le : κ → ν → ν → Bool
  count : ν → Option ℕ

inductive Operand (ν : Type) where
  | placeholder
  | literal (value : ν)
  deriving DecidableEq

inductive Comparison where
  | eq
  | nullSafeEq
  | ge
  | le
  | gt
  deriving DecidableEq

/-- A conjunct of a `WHERE` clause; `ω` is what stands to the right of the operator. -/
inductive Condition (κ ω : Type) where
  | compare (column : κ) (operator : Comparison) (right : ω)
  | isNull (column : κ)
  deriving DecidableEq

/-- A conjunction that is false on one side is false, whatever the other; `none` is UNKNOWN. -/
def truthAnd : Option Bool → Option Bool → Option Bool
  | some false, _ => some false
  | _, some false => some false
  | some true, some true => some true
  | _, _ => none

theorem truthAnd_eq_true_iff (left right : Option Bool) :
    truthAnd left right = some true ↔ left = some true ∧ right = some true := by
  rcases left with _ | _ | _ <;> rcases right with _ | _ | _ <;> simp [truthAnd]

namespace Schema

variable {κ ν : Type} [DecidableEq ν] (schema : Schema κ ν)

def compare (column : κ) (operator : Comparison) (left right : ν) : Option Bool :=
  match operator with
  | .nullSafeEq => some (decide (left = right))
  | .eq => if left = schema.null ∨ right = schema.null then none else some (decide (left = right))
  | .ge => if left = schema.null ∨ right = schema.null then none
      else some (schema.le column right left)
  | .le => if left = schema.null ∨ right = schema.null then none
      else some (schema.le column left right)
  | .gt => if left = schema.null ∨ right = schema.null then none
      else some (!schema.le column left right)

def truth (row : κ → ν) : Condition κ ν → Option Bool
  | .compare column operator value => schema.compare column operator (row column) value
  | .isNull column => some (decide (row column = schema.null))

def holds (row : κ → ν) (condition : Condition κ ν) : Bool :=
  decide (schema.truth row condition = some true)

/-- `WHERE condition AND ... AND condition` -/
def whereTrue (conditions : List (Condition κ ν)) (row : κ → ν) : Bool :=
  decide (conditions.foldl (fun truth condition => truthAnd truth (schema.truth row condition))
    (some true) = some true)

/-- A row is kept when every condition is true of it. -/
theorem whereTrue_eq_all (conditions : List (Condition κ ν)) (row : κ → ν) :
    schema.whereTrue conditions row = conditions.all (schema.holds row) := by
  have conjunction : ∀ truth : Option Bool,
      conditions.foldl (fun truth condition => truthAnd truth (schema.truth row condition)) truth =
          some true ↔
        truth = some true ∧
          ∀ condition ∈ conditions, schema.truth row condition = some true := by
    induction conditions with
    | nil => simp
    | cons condition conditions ih =>
        intro truth
        rw [List.foldl_cons, ih, truthAnd_eq_true_iff, List.forall_mem_cons, and_assoc]
  rw [whereTrue, Bool.eq_iff_iff, decide_eq_true_eq, conjunction, List.all_eq_true]
  simp only [true_and, Schema.holds, decide_eq_true_eq]

variable {schema} {row : κ → ν} {column : κ} {value : ν}

theorem holds_eq (given : value ≠ schema.null) :
    schema.holds row (.compare column .eq value) = decide (row column = value) := by
  rw [holds, truth, compare]
  by_cases isNull : row column = schema.null
  · rw [if_pos (Or.inl isNull), isNull, decide_eq_false given.symm]
    rfl
  · rw [if_neg (not_or.mpr ⟨isNull, given⟩)]
    simp only [Option.some.injEq, decide_eq_true_eq]

theorem holds_nullSafeEq :
    schema.holds row (.compare column .nullSafeEq value) = decide (row column = value) := by
  rw [holds, truth, compare]
  simp only [Option.some.injEq, decide_eq_true_eq]

theorem holds_isNull : schema.holds row (.isNull column) = decide (row column = schema.null) := by
  rw [holds, truth]
  simp only [Option.some.injEq, decide_eq_true_eq]

theorem holds_ge (stored : row column ≠ schema.null) (given : value ≠ schema.null) :
    schema.holds row (.compare column .ge value) = schema.le column value (row column) := by
  rw [holds, truth, compare, if_neg (not_or.mpr ⟨stored, given⟩)]
  simp only [Option.some.injEq, Bool.decide_eq_true]

theorem holds_le (stored : row column ≠ schema.null) (given : value ≠ schema.null) :
    schema.holds row (.compare column .le value) = schema.le column (row column) value := by
  rw [holds, truth, compare, if_neg (not_or.mpr ⟨stored, given⟩)]
  simp only [Option.some.injEq, Bool.decide_eq_true]

theorem holds_gt (stored : row column ≠ schema.null) (given : value ≠ schema.null) :
    schema.holds row (.compare column .gt value) = !schema.le column (row column) value := by
  rw [holds, truth, compare, if_neg (not_or.mpr ⟨stored, given⟩)]
  simp only [Option.some.injEq, Bool.decide_eq_true]

theorem holds_null {operator : Comparison} (notSafe : operator ≠ .nullSafeEq)
    (isNull : row column = schema.null ∨ value = schema.null) :
    schema.holds row (.compare column operator value) = false := by
  rw [holds, truth]
  cases operator with
  | nullSafeEq => exact absurd rfl notSafe
  | _ =>
      rw [compare, if_pos isNull]
      rfl

variable (schema)

omit [DecidableEq ν] in
def takeOperand (column : κ) : Operand ν → List ν → Option (ν × List ν)
  | .literal value, params => some (value, params)
  | .placeholder, [] => none
  | .placeholder, value :: params =>
      if schema.admits column value then some (value, params) else none

def takeCondition : Condition κ (Operand ν) → List ν → Option (Condition κ ν × List ν)
  | .isNull column, params => some (.isNull column, params)
  | .compare column operator right, params =>
      (schema.takeOperand column right params).map fun taken =>
        (.compare column operator taken.1, taken.2)

def takeSet (set : κ × Operand ν) (params : List ν) : Option ((κ × ν) × List ν) :=
  (schema.takeOperand set.1 set.2 params).map fun taken => ((set.1, taken.1), taken.2)

variable {schema}

omit [DecidableEq ν] in
theorem takes_set {column : κ} {value : ν} (admitted : schema.admits column value = true) :
    Takes schema.takeSet [(column, .placeholder)] [value] [(column, value)] := by
  apply takes_single
  intro rest
  rw [List.singleton_append, takeSet, takeOperand, if_pos admitted, Option.map_some]

omit [DecidableEq ν] in
theorem takes_setLiteral (column : κ) (value : ν) :
    Takes schema.takeSet [(column, .literal value)] [] [(column, value)] :=
  takes_single fun _ => rfl

end Schema

/-! ## What conditions select -/

section Selection
variable {κ ν ρ : Type} [DecidableEq ν] {schema : Schema κ ν} {columns : ρ → κ → ν} {column : κ}
  {value : ν} {clauses clauses' : List (Condition κ (Operand ν))} {params params' : List ν}
  {condition condition' : ρ → Bool}

/-- With these values the clauses are true of the rows that meet the condition. -/
def Selects (schema : Schema κ ν) (columns : ρ → κ → ν) (clauses : List (Condition κ (Operand ν)))
    (params : List ν) (condition : ρ → Bool) : Prop :=
  ∃ bound, Takes schema.takeCondition clauses params bound ∧
    ∀ row, schema.whereTrue bound (columns row) = condition row

theorem selects_nil : Selects schema columns [] [] fun _ => true :=
  ⟨[], takes_nil, fun _ => rfl⟩

theorem selects_compare {operator : Comparison} (admitted : schema.admits column value = true)
    (holds : ∀ row, schema.holds (columns row) (.compare column operator value) = condition row) :
    Selects schema columns [.compare column operator .placeholder] [value] condition := by
  refine ⟨[.compare column operator value], takes_single fun rest => ?_, fun row => ?_⟩
  · rw [List.singleton_append, Schema.takeCondition, Schema.takeOperand, if_pos admitted,
      Option.map_some]
  · rw [Schema.whereTrue_eq_all, List.all_cons, List.all_nil, Bool.and_true, holds]

theorem selects_literal {operator : Comparison}
    (holds : ∀ row, schema.holds (columns row) (.compare column operator value) = condition row) :
    Selects schema columns [.compare column operator (.literal value)] [] condition := by
  refine ⟨[.compare column operator value], takes_single fun rest => rfl, fun row => ?_⟩
  rw [Schema.whereTrue_eq_all, List.all_cons, List.all_nil, Bool.and_true, holds]

theorem selects_isNull
    (holds : ∀ row, schema.holds (columns row) (.isNull column) = condition row) :
    Selects schema columns [.isNull column] [] condition := by
  refine ⟨[.isNull column], takes_single fun rest => rfl, fun row => ?_⟩
  rw [Schema.whereTrue_eq_all, List.all_cons, List.all_nil, Bool.and_true, holds]

theorem Selects.append (first : Selects schema columns clauses params condition)
    (second : Selects schema columns clauses' params' condition') :
    Selects schema columns (clauses ++ clauses') (params ++ params')
      fun row => condition row && condition' row := by
  obtain ⟨bound, taken, selects⟩ := first
  obtain ⟨bound', taken', selects'⟩ := second
  refine ⟨bound ++ bound', taken.append taken', fun row => ?_⟩
  rw [Schema.whereTrue_eq_all, List.all_append, ← Schema.whereTrue_eq_all,
    ← Schema.whereTrue_eq_all, selects, selects']

theorem Selects.congr (selects : Selects schema columns clauses params condition)
    (same : ∀ row, condition row = condition' row) :
    Selects schema columns clauses params condition' := by
  obtain ⟨bound, taken, holds⟩ := selects
  exact ⟨bound, taken, fun row => (holds row).trans (same row)⟩

end Selection

/-! ## Queries -/

inductive Limit where
  | all
  | rows (count : ℕ)
  | placeholder
  deriving DecidableEq

def cut {α : Type} (limit : Option ℕ) (rows : List α) : List α :=
  match limit with
  | none => rows
  | some count => rows.take count

theorem cut_map {α β : Type} (limit : Option ℕ) (f : α → β) (rows : List α) :
    cut limit (rows.map f) = (cut limit rows).map f := by
  cases limit with
  | none => rfl
  | some count => exact List.map_take.symm

/-- `WHERE ... ORDER BY column ASC, ... LIMIT ...` -/
structure Select (κ ν : Type) where
  conditions : List (Condition κ (Operand ν))
  order : List κ
  limit : Limit
  deriving DecidableEq

namespace Schema

variable {κ ν : Type} [DecidableEq ν] (schema : Schema κ ν)

def before : List κ → (κ → ν) → (κ → ν) → Bool
  | [], _, _ => true
  | column :: columns, left, right =>
      schema.le column (left column) (right column) &&
        (!schema.le column (right column) (left column) || before columns left right)

def takeLimit : Limit → List ν → Option (Option ℕ)
  | .all, [] => some none
  | .rows count, [] => some (some count)
  | .placeholder, [value] => (schema.count value).map some
  | _, _ => none

def select (statement : Select κ ν) (table : List (κ → ν)) (params : List ν) :
    Option (List (κ → ν)) := do
  let (conditions, rest) ← takeEach schema.takeCondition statement.conditions params
  let limit ← schema.takeLimit statement.limit rest
  let sorted := (table.filter (schema.whereTrue conditions)).insertionSort fun left right =>
    schema.before statement.order left right = true
  return cut limit sorted

variable {schema}

theorem select_map {ρ : Type} {columns : ρ → κ → ν} (statement : Select κ ν)
    {params rest : List ν} {limit : Option ℕ} {condition : ρ → Bool} {le : ρ → ρ → Prop}
    [DecidableRel le] (selects : Selects schema columns statement.conditions params condition)
    (limited : schema.takeLimit statement.limit rest = some limit)
    (orders : ∀ left right, schema.before statement.order (columns left) (columns right) = true ↔
      le left right)
    (rows : List ρ) :
    schema.select statement (rows.map columns) (params ++ rest) =
      some ((cut limit ((rows.filter condition).insertionSort le)).map columns) := by
  obtain ⟨conditions, taken, holds⟩ := selects
  have sorted : ((rows.map columns).filter (schema.whereTrue conditions)).insertionSort
      (fun left right => schema.before statement.order left right = true) =
        ((rows.filter condition).insertionSort le).map columns := by
    rw [List.filter_map, List.map_insertionSort le
      (fun left right => schema.before statement.order left right = true) columns _
      fun left _ right _ => (orders left right).symm]
    congr 2
    exact List.filter_congr fun row _ => holds row
  simp only [select, taken rest, limited, Option.bind_eq_bind, Option.bind_some, pure, sorted,
    cut_map]

theorem select_all {ρ : Type} {columns : ρ → κ → ν} (statement : Select κ ν) {params : List ν}
    {condition : ρ → Bool} {le : ρ → ρ → Prop} [DecidableRel le]
    (selects : Selects schema columns statement.conditions params condition)
    (unlimited : statement.limit = .all)
    (orders : ∀ left right, schema.before statement.order (columns left) (columns right) = true ↔
      le left right)
    (rows : List ρ) :
    schema.select statement (rows.map columns) params =
      some (((rows.filter condition).insertionSort le).map columns) := by
  have limited : schema.takeLimit statement.limit [] = some none := by
    rw [unlimited, takeLimit]
  have ran := select_map statement selects limited orders rows
  rw [List.append_nil] at ran
  exact ran

theorem insertionSort_unordered {α : Type} (rows : List α) :
    rows.insertionSort (fun _ _ => True) = rows := by
  induction rows with
  | nil => rfl
  | cons row rows ih =>
      rw [List.insertionSort_cons, ih]
      cases rows with
      | nil => rfl
      | cons next rows => rfl

theorem select_unordered {ρ : Type} {columns : ρ → κ → ν} (statement : Select κ ν)
    {params : List ν} {condition : ρ → Bool}
    (selects : Selects schema columns statement.conditions params condition)
    (unlimited : statement.limit = .all) (unordered : statement.order = []) (rows : List ρ) :
    schema.select statement (rows.map columns) params =
      some ((rows.filter condition).map columns) := by
  have orders : ∀ left right, schema.before statement.order (columns left) (columns right) = true ↔
      True := by
    intro left right
    rw [unordered, before]
    exact iff_of_true rfl trivial
  rw [select_all statement selects unlimited orders, insertionSort_unordered]

end Schema

/-! ## Joins -/

section Joins
variable {κ κ' ν : Type} (null : ν) (on : (κ → ν) → (κ' → ν) → Bool)

/-- `left LEFT JOIN right ON on` -/
def leftJoin (left : List (κ → ν)) (right : List (κ' → ν)) : List (κ ⊕ κ' → ν) :=
  left.flatMap fun row =>
    match right.filter (on row) with
    | [] => [Sum.elim row fun _ => null]
    | matched => matched.map (Sum.elim row)

variable {null on}

/-- Where at most one row on the right matches, each row on the left stays one row. -/
theorem leftJoin_eq_map {left : List (κ → ν)} {right : List (κ' → ν)}
    (unique : ∀ row ∈ left, (right.filter (on row)).length ≤ 1) :
    leftJoin null on left right =
      left.map fun row => Sum.elim row ((right.find? (on row)).getD fun _ => null) := by
  rw [leftJoin, ← List.flatMap_singleton' (left.map _), List.flatMap_map]
  refine List.flatMap_congr fun row member => ?_
  rw [← List.head?_filter]
  have atMostOne := unique row member
  cases hits : right.filter (on row) with
  | nil => rfl
  | cons matched more =>
      rw [hits, List.length_cons] at atMostOne
      have alone : more = [] := List.length_eq_zero_iff.mp (by omega)
      rw [alone]
      rfl

end Joins

/-! ## Writes -/

/-- `SET column = ..., ... WHERE ...` -/
structure Update (κ ν : Type) where
  sets : List (κ × Operand ν)
  conditions : List (Condition κ (Operand ν))
  deriving DecidableEq

/-- `(column, ...) VALUES (..., ...)` -/
structure InsertInto (κ ν : Type) where
  columns : List κ
  values : List (Operand ν)
  deriving DecidableEq

section Assignments
variable {κ ν : Type} [DecidableEq κ] [DecidableEq ν]

def assignAll (sets : List (κ × ν)) (row : κ → ν) : κ → ν :=
  sets.foldl (fun row set => Function.update row set.1 set.2) row

omit [DecidableEq ν] in
theorem assignAll_of_not_mem {column : κ} {sets : List (κ × ν)}
    (untouched : column ∉ sets.map Prod.fst) (row : κ → ν) :
    assignAll sets row column = row column := by
  induction sets generalizing row with
  | nil => rfl
  | cons set sets ih =>
      rw [List.map_cons, List.mem_cons, not_or] at untouched
      rw [assignAll, List.foldl_cons]
      exact (ih untouched.2 _).trans (Function.update_of_ne untouched.1 _ _)

omit [DecidableEq ν] in
/-- Of the assignments to a column, the last one stands. -/
theorem assignAll_eq_last (sets : List (κ × ν)) (row : κ → ν) (column : κ) :
    assignAll sets row column = (sets.reverse.lookup column).getD (row column) := by
  induction sets generalizing row with
  | nil => rfl
  | cons set sets ih =>
      have step : assignAll (set :: sets) row =
          assignAll sets (Function.update row set.1 set.2) := rfl
      rw [step, ih, List.reverse_cons, List.lookup_append]
      cases sets.reverse.lookup column with
      | some value => rfl
      | none =>
          by_cases same : column = set.1
          · subst same
            simp [List.lookup]
          · have other : (column == set.1) = false := beq_eq_false_iff_ne.mpr same
            simp [List.lookup, other, Function.update_of_ne same]

/-- A row counts as changed when one of the columns that are set is changed. -/
def changes (sets : List (κ × ν)) (row : κ → ν) : Bool :=
  sets.any fun set => decide (assignAll sets row set.1 ≠ row set.1)

theorem changes_iff (sets : List (κ × ν)) (row : κ → ν) :
    changes sets row = true ↔ assignAll sets row ≠ row := by
  rw [changes, List.any_eq_true]
  constructor
  · intro ⟨set, _, changed⟩ same
    rw [decide_eq_true_eq, same] at changed
    exact changed rfl
  · intro changed
    by_contra none_
    refine changed (funext fun column => ?_)
    by_cases touched : column ∈ sets.map Prod.fst
    · obtain ⟨set, member, rfl⟩ := List.mem_map.mp touched
      by_contra differs
      exact none_ ⟨set, member, decide_eq_true differs⟩
    · exact assignAll_of_not_mem touched row

namespace Schema

variable (schema : Schema κ ν)

def update (statement : Update κ ν) (table : List (κ → ν)) (params : List ν) :
    Option (ℕ × List (κ → ν)) := do
  let (sets, rest) ← takeEach schema.takeSet statement.sets params
  let (conditions, rest) ← takeEach schema.takeCondition statement.conditions rest
  if rest.isEmpty then
    some (table.countP fun row => schema.whereTrue conditions row && changes sets row,
      table.map fun row => if schema.whereTrue conditions row then assignAll sets row else row)
  else none

/-- The row of an `INSERT`: a column that is not named is NULL. -/
def insertRow (statement : InsertInto κ ν) (params : List ν) : Option (κ → ν) := do
  let (sets, rest) ← takeEach schema.takeSet (statement.columns.zip statement.values) params
  if rest.isEmpty && statement.columns.length == statement.values.length then
    some (assignAll sets fun _ => schema.null)
  else none

/-- The table afterwards, or `none` within for a row whose primary key is taken. -/
def insert (key : κ) (statement : InsertInto κ ν) (table : List (κ → ν)) (params : List ν) :
    Option (Option (List (κ → ν))) :=
  (schema.insertRow statement params).map fun row =>
    if table.any fun other => decide (other key = row key) then none else some (table ++ [row])

variable {schema} {ρ : Type} [DecidableEq ρ] {columns : ρ → κ → ν}

/-- An update of stored rows, for a table that shows each of them in columns. -/
theorem update_map (shows : Function.Injective columns) {statement : Update κ ν}
    {params params' : List ν} {sets : List (κ × ν)} {condition : ρ → Bool} {assign : ρ → ρ}
    (takenSets : Takes schema.takeSet statement.sets params sets)
    (selects : Selects schema columns statement.conditions params' condition)
    (assigns : ∀ row, assignAll sets (columns row) = columns (assign row)) (rows : List ρ) :
    schema.update statement (rows.map columns) (params ++ params') =
      some (rows.countP fun row => condition row && decide (assign row ≠ row),
        (rows.map fun row => if condition row then assign row else row).map columns) := by
  obtain ⟨conditions, takenConditions, holds⟩ := selects
  have second := takenConditions []
  rw [List.append_nil] at second
  have changed : ∀ row, changes sets (columns row) = decide (assign row ≠ row) := by
    intro row
    rw [Bool.eq_iff_iff, changes_iff, assigns, decide_eq_true_eq, shows.ne_iff]
  simp only [update, takenSets params', second, Option.bind_eq_bind, Option.bind_some,
    List.isEmpty_nil, if_true, List.countP_map, List.map_map, Option.some.injEq, Prod.mk.injEq]
  constructor
  · refine List.countP_congr fun row _ => ?_
    rw [Function.comp_apply, holds, changed]
  · refine List.map_congr_left fun row _ => ?_
    rw [Function.comp_apply, Function.comp_apply, holds]
    by_cases hit : condition row = true
    · rw [if_pos hit, if_pos hit, assigns]
    · rw [if_neg hit, if_neg hit]

omit [DecidableEq ν] in
theorem insertRow_of_takes {statement : InsertInto κ ν} {params : List ν} {sets : List (κ × ν)}
    (taken : Takes schema.takeSet (statement.columns.zip statement.values) params sets)
    (balanced : statement.columns.length = statement.values.length) :
    schema.insertRow statement params = some (assignAll sets fun _ => schema.null) := by
  have all := taken []
  rw [List.append_nil] at all
  simp only [insertRow, all, Option.bind_eq_bind, Option.bind_some, List.isEmpty_nil,
    beq_iff_eq.mpr balanced, Bool.and_self, if_true]

omit [DecidableEq ρ] in
theorem insert_map {τ : Type} [DecidableEq τ] {key : ρ → τ} {keyColumn : κ}
    (shows : ∀ left right, columns left keyColumn = columns right keyColumn ↔ key left = key right)
    {statement : InsertInto κ ν} {params : List ν} {row : ρ}
    (inserted : schema.insertRow statement params = some (columns row)) (table : KeyedTable key) :
    schema.insert keyColumn statement (table.rows.map columns) params =
      some ((table.insert row).map fun after => after.rows.map columns) := by
  have taken : ((table.rows.map columns).any fun other =>
      decide (other keyColumn = columns row keyColumn)) = true ↔ table.get (key row) ≠ none := by
    rw [List.any_map, List.any_eq_true, Ne, KeyedTable.get_eq_none_iff]
    push Not
    simp only [Function.comp_apply, decide_eq_true_eq, shows]
  rw [insert, inserted, Option.map_some]
  rcases table.insert_cases row with ⟨refused, present⟩ | ⟨after, stored, free, -⟩
  · rw [if_pos (taken.mpr present), refused, Option.map_none]
  · rw [if_neg (fun present => taken.mp present free), stored, Option.map_some,
      ((table.insert_eq_some_iff after row).mp stored).2, List.map_append, List.map_singleton]

end Schema
end Assignments

end SupernoteTaskService.Foundation
