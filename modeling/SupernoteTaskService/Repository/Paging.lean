import SupernoteTaskService.Foundation.Fallible
import SupernoteTaskService.Foundation.CursorLoop
import SupernoteTaskService.Errors
import SupernoteTaskService.Store

/-!
# Pages of rows

What `list_tasks` and `list_lists` share: the limit, the sort by stamp and id, the
decision that a page is full or lies on one millisecond, the cursor, and the drain.
The last section shows that a delta read is a rendered page of the keyset order.
-/

set_option autoImplicit false

namespace SupernoteTaskService

open Foundation

/-! ## Limits and cursors -/

def DEFAULT_PAGE_LIMIT : ℕ := 500

def MAX_PAGE_LIMIT : ℕ := 1000

def clampLimit (limit : Option ℤ) : ℕ :=
  match limit with
  | none => DEFAULT_PAGE_LIMIT
  | some limit => (max 1 (min limit MAX_PAGE_LIMIT)).toNat

theorem clampLimit_pos (limit : Option ℤ) : 0 < clampLimit limit := by
  cases limit with
  | none => decide
  | some limit =>
      unfold clampLimit MAX_PAGE_LIMIT
      dsimp only
      omega

section Stamps
variable (stamps : List ℤ) (effectiveLimit : ℕ) (serverNow : ℤ)

def isSingleMsFullPage : Bool :=
  stamps.length == effectiveLimit && !stamps.isEmpty && stamps.head? == stamps.getLast?

def pageCursor : ℤ :=
  match stamps.getLast? with
  | some last => if stamps.length = effectiveLimit then last else serverNow
  | none => serverNow

def isFullPage : Bool := stamps.length == effectiveLimit && !stamps.isEmpty

theorem isFullPage_eq : isFullPage stamps effectiveLimit = isFull effectiveLimit stamps := rfl

theorem isSingleMsFullPage_eq :
    isSingleMsFullPage stamps effectiveLimit =
      (isFull effectiveLimit stamps && isSingle stamps) := rfl

theorem pageCursor_eq :
    pageCursor stamps effectiveLimit serverNow = cursorOf effectiveLimit serverNow stamps := by
  unfold pageCursor cursorOf isFull
  cases ends : stamps.getLast? with
  | none =>
      rw [List.getLast?_eq_none_iff] at ends
      simp [ends]
  | some last =>
      have nonempty : stamps ≠ [] := by
        intro empty
        rw [empty] at ends
        cases ends
      by_cases full : stamps.length = effectiveLimit <;>
        simp [full, nonempty, List.getLastD_eq_getLast?, ends]

theorem pageCursor_of_not_full (notFull : stamps.length ≠ effectiveLimit) :
    pageCursor stamps effectiveLimit serverNow = serverNow := by
  unfold pageCursor
  cases stamps.getLast? with
  | none => rfl
  | some last => exact if_neg notFull

end Stamps

/-! ## Sorted rows -/

section Order
variable {ρ : Type} (lastModified : ρ → Option ℤ) (id : ρ → Text)

/-- An ascending sort puts NULL first. -/
def columnBefore : Option ℤ → Option ℤ → Bool
  | none, some _ => true
  | some left, some right => decide (left < right)
  | _, none => false

/-- `ORDER BY last_modified ASC, id ASC` -/
def stampOrder (left right : ρ) : Bool :=
  columnBefore (lastModified left) (lastModified right) ||
    (decide (lastModified left = lastModified right) && decide (id left ≤ id right))

def orderByStamp (rows : List ρ) : List ρ :=
  rows.insertionSort fun left right => stampOrder lastModified id left right = true

def orderById (rows : List ρ) : List ρ := rows.insertionSort fun left right => id left ≤ id right

/-- `last_modified >= %s AND last_modified <= %s` -/
def stampedWithin (since serverNow : ℤ) (stamp : Option ℤ) : Bool :=
  match stamp with
  | some m => decide (since ≤ m) && decide (m ≤ serverNow)
  | none => false

def stampKeys : Keyset ρ Text := ⟨fun row => (lastModified row).getD 0, id⟩

/-- The rank of a row in the order of stamps and ids, a NULL stamp below all others. -/
def stampRank (row : ρ) : Lex (WithBot ℤ × Text) := toLex (lastModified row, id row)

variable {lastModified id}

theorem mem_orderByStamp {rows : List ρ} {row : ρ} :
    row ∈ orderByStamp lastModified id rows ↔ row ∈ rows :=
  List.mem_insertionSort _

theorem columnBefore_iff (left right : WithBot ℤ) :
    columnBefore left right = true ↔ left < right := by
  cases left with
  | bot =>
      cases right with
      | bot => exact iff_of_false Bool.false_ne_true (lt_irrefl _)
      | coe right => exact iff_of_true rfl (WithBot.bot_lt_coe right)
  | coe left =>
      cases right with
      | bot => exact iff_of_false Bool.false_ne_true not_lt_bot
      | coe right => exact decide_eq_true_iff.trans WithBot.coe_lt_coe.symm

theorem stampOrder_iff {left right : ρ} :
    stampOrder lastModified id left right = true ↔
      stampRank lastModified id left ≤ stampRank lastModified id right := by
  rw [stampOrder, Bool.or_eq_true, Bool.and_eq_true, decide_eq_true_eq, decide_eq_true_eq]
  exact (or_congr_left (columnBefore_iff _ _)).trans (Prod.Lex.toLex_le_toLex (α := WithBot ℤ)
    (x := (lastModified left, id left)) (y := (lastModified right, id right))).symm

theorem orderByStamp_perm {left right : List ρ} (perm : left.Perm right)
    (distinct : (left.map id).Nodup) :
    orderByStamp lastModified id left = orderByStamp lastModified id right := by
  refine insertionSort_eq_of_perm (stampRank lastModified id) _ (fun _ _ => stampOrder_iff) perm ?_
  refine List.Nodup.of_map (fun rank => (ofLex rank).2) ?_
  rw [List.map_map]
  exact distinct

theorem orderById_perm {left right : List ρ} (perm : left.Perm right)
    (distinct : (left.map id).Nodup) : orderById id left = orderById id right :=
  insertionSort_eq_of_perm id _ (fun _ _ => Iff.rfl) perm distinct

theorem stampKeys_stamp {row : ρ} {m : ℤ} (stamped : lastModified row = some m) :
    (stampKeys lastModified id).stamp row = m := by
  simp only [stampKeys, stamped, Option.getD_some]

/-- On stamped rows the two sort orders agree. -/
theorem orderByStamp_eq_sort {rows : List ρ}
    (stamped : ∀ row ∈ rows, ∃ m, lastModified row = some m) :
    orderByStamp lastModified id rows = (stampKeys lastModified id).sort rows := by
  apply insertionSort_congr
  intro left leftMem right rightMem
  obtain ⟨leftStamp, leftStamped⟩ := stamped left leftMem
  obtain ⟨rightStamp, rightStamped⟩ := stamped right rightMem
  simp [stampOrder, columnBefore, leftStamped, rightStamped, Keyset.le, stampKeys]

theorem orderById_eq_sort {rows : List ρ} {m : ℤ}
    (onStamp : ∀ row ∈ rows, (stampKeys lastModified id).stamp row = m) :
    orderById id rows = (stampKeys lastModified id).sort rows := by
  apply insertionSort_congr
  intro left leftMem right rightMem
  have same := (onStamp left leftMem).trans (onStamp right rightMem).symm
  unfold Keyset.le
  rw [same]
  simp [stampKeys]

theorem stampedWithin_iff {since serverNow : ℤ} {stamp : Option ℤ} :
    stampedWithin since serverNow stamp = true ↔
      stamp.isSome = true ∧ since ≤ stamp.getD 0 ∧ stamp.getD 0 ≤ serverNow := by
  cases stamp with
  | none => simp [stampedWithin]
  | some m => simp [stampedWithin]

section Window
variable (rows : List ρ) (base : ρ → Bool) {since serverNow : ℤ}

theorem filter_stampedWithin :
    (rows.filter fun row => base row && stampedWithin since serverNow (lastModified row)) =
      windowOf (stampKeys lastModified id)
        (rows.filter fun row => base row && (lastModified row).isSome) since serverNow := by
  unfold windowOf
  rw [List.filter_filter]
  apply List.filter_congr
  intro row _
  rw [Bool.eq_iff_iff]
  simp only [Bool.and_eq_true, decide_eq_true_eq, stampedWithin_iff]
  simp only [stampKeys]
  tauto

theorem drain_eq_remainder {last : ρ} {m : ℤ} (stamped : lastModified last = some m)
    (lower : since ≤ m) (upper : m ≤ serverNow) :
    orderById id (rows.filter fun row =>
        base row && decide (lastModified row = some m) && decide (id last < id row)) =
      remainder (stampKeys lastModified id) (windowOf (stampKeys lastModified id)
        (rows.filter fun row => base row && (lastModified row).isSome) since serverNow) last := by
  unfold remainder
  rw [← filter_stampedWithin, stampKeys_stamp stamped]
  refine (orderById_eq_sort (m := m) ?_).trans (congrArg (stampKeys lastModified id).sort ?_)
  · intro row member
    have hit := (List.mem_filter.mp member).2
    simp only [Bool.and_eq_true, decide_eq_true_eq] at hit
    exact stampKeys_stamp hit.1.2
  · rw [List.filter_filter]
    apply List.filter_congr
    intro row _
    rw [Bool.eq_iff_iff]
    simp only [Bool.and_eq_true, decide_eq_true_eq, stampedWithin_iff]
    simp only [stampKeys]
    cases lastModified row with
    | none => simp
    | some m' =>
        simp only [Option.some.injEq, Option.getD_some, Option.isSome_some, true_and]
        constructor
        · intro ⟨⟨owned, same⟩, after⟩
          subst same
          exact ⟨⟨rfl, after⟩, owned, lower, upper⟩
        · intro ⟨⟨same, after⟩, owned, _⟩
          exact ⟨⟨owned, same⟩, after⟩

end Window

end Order

/-! ## The shared body of the two reads -/

section Assembly
variable {ρ α : Type}

/-- Map the page.  In delta mode a full page on one millisecond is completed by the
drained rows and steps past that millisecond. -/
def assemblePage (render : ρ → Except Raised α) (stamp : α → ℤ) (effectiveLimit : ℕ)
    (serverNow : ℤ) (delta : Bool) (rows : List ρ) (drain : α → List ρ) :
    Except Raised (Page α) := do
  let items ← rows.mapM render
  let stamps := items.map stamp
  let boundaryItem :=
    if delta && isSingleMsFullPage stamps effectiveLimit then items.getLast? else none
  match boundaryItem with
  | some last => do
      let drained ← (drain last).mapM render
      return ⟨items ++ drained, stamp last + 1, false⟩
  | none =>
      return ⟨items, pageCursor stamps effectiveLimit serverNow,
        isFullPage stamps effectiveLimit⟩

theorem assemblePage_answers {render : ρ → Except Raised α} (stamp : α → ℤ) (effectiveLimit : ℕ)
    (serverNow : ℤ) (delta : Bool) {rows : List ρ} {drain : α → List ρ}
    (rendered : ∀ row ∈ rows, ∃ item, render row = .ok item)
    (drained : ∀ last, ∀ row ∈ drain last, ∃ item, render row = .ok item) :
    ∃ page, assemblePage render stamp effectiveLimit serverNow delta rows drain = .ok page := by
  obtain ⟨items, mapped⟩ := mapM_ok_iff_forall.mpr rendered
  simp only [assemblePage, mapped, bind, Except.bind]
  split
  · rename_i last _
    obtain ⟨more, moreMapped⟩ := mapM_ok_iff_forall.mpr (drained last)
    rw [moreMapped]
    exact ⟨_, rfl⟩
  · exact ⟨_, rfl⟩

def renderPage (render : ρ → Except Raised α) (page : Page ρ) : Except Raised (Page α) := do
  let items ← page.items.mapM render
  return ⟨items, page.cursor, page.hasMore⟩

theorem renderPage_eq_ok_iff {render : ρ → Except Raised α} {raw : Page ρ} {page : Page α} :
    renderPage render raw = .ok page ↔ Renders render raw page := by
  simp only [renderPage, Renders, bind_eq_ok_iff, pure_eq_ok_iff]
  constructor
  · intro ⟨items, mapped, same⟩
    subst same
    exact ⟨mapped, rfl, rfl⟩
  · intro ⟨mapped, cursorEq, moreEq⟩
    refine ⟨page.items, mapped, ?_⟩
    rw [← cursorEq, ← moreEq]

/-- The rows behind a read.  Where the page is drained, it ends with the rows that the
drain of its last row reads. -/
def rowPage (rowStamp : ρ → ℤ) (effectiveLimit : ℕ) (serverNow : ℤ) (delta : Bool)
    (rows : List ρ) (drain : ρ → List ρ) : Page ρ :=
  let stamps := rows.map rowStamp
  match if delta && isSingleMsFullPage stamps effectiveLimit then rows.getLast? else none with
  | some last => ⟨rows ++ drain last, rowStamp last + 1, false⟩
  | none => ⟨rows, pageCursor stamps effectiveLimit serverNow, isFullPage stamps effectiveLimit⟩

/-- A read renders its rows and decides nothing by what they render to. -/
theorem assemblePage_eq_renderPage {render : ρ → Except Raised α} {stamp : α → ℤ}
    {rowStamp : ρ → ℤ}
    (keepsStamp : ∀ row item, render row = .ok item → stamp item = rowStamp row)
    (effectiveLimit : ℕ) (serverNow : ℤ) (delta : Bool) {rows : List ρ} {drain : α → List ρ}
    {rowDrain : ρ → List ρ}
    (drains : ∀ row item, row ∈ rows → render row = .ok item → drain item = rowDrain row) :
    assemblePage render stamp effectiveLimit serverNow delta rows drain =
      renderPage render (rowPage rowStamp effectiveLimit serverNow delta rows rowDrain) := by
  unfold assemblePage renderPage rowPage
  cases mapped : rows.mapM render with
  | error e =>
      -- The page fails to render, and with it every page that starts with it.
      dsimp only
      split
      · rw [List.mapM_append, mapped]
        rfl
      · rw [mapped]
        rfl
  | ok items =>
      have stamps := map_eq_of_mapM_ok keepsStamp mapped
      simp only [bind, Except.bind, stamps]
      cases single : delta && isSingleMsFullPage (rows.map rowStamp) effectiveLimit with
      | false => simp only [Bool.false_eq_true, if_false, mapped]
      | true =>
          simp only [if_true]
          cases ends : rows.getLast? with
          | none =>
              rw [List.getLast?_eq_none_iff] at ends
              subst ends
              cases mapped
              rfl
          | some last =>
              obtain ⟨item, itemsEnd, itemMapped⟩ := getLast_of_mapM_ok mapped ends
              have lastMem := List.mem_of_getLast? ends
              simp only [itemsEnd, drains last item lastMem itemMapped, keepsStamp last item itemMapped]
              rw [List.mapM_append, mapped]
              simp only [bind, Except.bind]
              cases (rowDrain last).mapM render with
              | error e => rfl
              | ok drained => rfl

theorem assemblePage_snapshot {render : ρ → Except Raised α} {stamp : α → ℤ} {rowStamp : ρ → ℤ}
    (keepsStamp : ∀ row item, render row = .ok item → stamp item = rowStamp row)
    {effectiveLimit : ℕ} {serverNow : ℤ} {rows : List ρ} {drain : α → List ρ} {page : Page α}
    (answered : assemblePage render stamp effectiveLimit serverNow false rows drain = .ok page) :
    rows.mapM render = .ok page.items ∧
      page.cursor = pageCursor (rows.map rowStamp) effectiveLimit serverNow ∧
      page.hasMore = isFullPage (rows.map rowStamp) effectiveLimit := by
  rw [assemblePage, bind_eq_ok_iff] at answered
  obtain ⟨items, mapped, same⟩ := answered
  have stamps := map_eq_of_mapM_ok keepsStamp mapped
  simp only [stamps, Bool.false_and, Bool.false_eq_true, if_false, pure_eq_ok_iff] at same
  subst same
  exact ⟨mapped, rfl, rfl⟩

theorem page_at_limit (rowStamp : ρ → ℤ) (sorted : List ρ) {effectiveLimit : ℕ} (serverNow : ℤ)
    (positive : 0 < effectiveLimit) :
    isFullPage ((sorted.take effectiveLimit).map rowStamp) effectiveLimit = false ∧
        sorted[effectiveLimit - 1]? = none ∨
      ∃ row, sorted[effectiveLimit - 1]? = some row ∧
        isFullPage ((sorted.take effectiveLimit).map rowStamp) effectiveLimit = true ∧
        pageCursor ((sorted.take effectiveLimit).map rowStamp) effectiveLimit serverNow =
          rowStamp row := by
  by_cases long : effectiveLimit ≤ sorted.length
  · right
    have inside : effectiveLimit - 1 < sorted.length := by omega
    have taken : (sorted.take effectiveLimit).length = effectiveLimit := by
      rw [List.length_take]
      omega
    have ends : (sorted.take effectiveLimit).getLast? = some sorted[effectiveLimit - 1] := by
      rw [List.getLast?_eq_getElem?, taken, List.getElem?_take_of_lt (by omega),
        List.getElem?_eq_getElem inside]
    refine ⟨sorted[effectiveLimit - 1], List.getElem?_eq_getElem inside, ?_, ?_⟩
    · have nonempty : sorted.take effectiveLimit ≠ [] := by
        intro empty
        rw [empty, List.length_nil] at taken
        omega
      rw [isFullPage, List.length_map, taken, beq_self_eq_true, Bool.true_and, List.isEmpty_map,
        List.isEmpty_eq_false_iff.mpr nonempty]
      rfl
    · simp only [pageCursor, List.getLast?_map, ends, Option.map_some, List.length_map, taken,
        if_true]
  · left
    refine ⟨?_, List.getElem?_eq_none (by omega)⟩
    have short : (sorted.take effectiveLimit).length ≠ effectiveLimit := by
      rw [List.length_take]
      omega
    simp only [isFullPage, List.length_map, beq_eq_false_iff_ne.mpr short, Bool.false_and]

theorem deltaPage_eq_rowPage (keys : Keyset ρ Text) (effectiveLimit : ℕ) (serverNow : ℤ)
    (window : List ρ) :
    deltaPage keys effectiveLimit serverNow window =
      rowPage keys.stamp effectiveLimit serverNow true ((keys.sort window).take effectiveLimit)
        (remainder keys window) := by
  unfold deltaPage rowPage
  generalize (keys.sort window).take effectiveLimit = page
  dsimp only
  rw [Bool.true_and, isSingleMsFullPage_eq, pageCursor_eq, isFullPage_eq]
  cases ends : page.getLast? with
  | none =>
      rw [List.getLast?_eq_none_iff] at ends
      subst ends
      simp [cursorOf, isFull]
  | some last =>
      dsimp only
      split <;> rfl

/-- A delta read of a window is a keyset page of it, rendered. -/
theorem assemblePage_delta {keys : Keyset ρ Text} {render : ρ → Except Raised α} {stamp : α → ℤ}
    (keepsStamp : ∀ row item, render row = .ok item → stamp item = keys.stamp row)
    (effectiveLimit : ℕ) (serverNow : ℤ) (window : List ρ) {drain : α → List ρ}
    (drains : ∀ last item, last ∈ window → render last = .ok item →
      drain item = remainder keys window last) :
    assemblePage render stamp effectiveLimit serverNow true
        ((keys.sort window).take effectiveLimit) drain =
      renderPage render (deltaPage keys effectiveLimit serverNow window) := by
  rw [deltaPage_eq_rowPage]
  apply assemblePage_eq_renderPage keepsStamp
  intro row item member mapped
  exact drains row item (keys.mem_sort.mp (List.mem_of_mem_take member)) mapped

end Assembly

end SupernoteTaskService
