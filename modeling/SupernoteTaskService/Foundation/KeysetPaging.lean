import Mathlib

/-!
# Keyset paging over a stamped, tie-broken order

Rows carry an integer stamp, which rows may share, and a tie breaker, which they
may not.  A page of the window is the first `limit` rows in `(stamp, tie)` order.
A full page that lies on one stamp is completed by the remaining rows of that
stamp and its cursor steps past it; any other full page resumes at the stamp of
its last row; a page below the limit resumes at the clock.

`DeltaShape` says once what such a page can be.  Everything later about delivery,
cursors and client loops is derived from the three shapes and never unfolds the
page again.
-/

set_option autoImplicit false

namespace SupernoteTaskService.Foundation

structure Keyset (ρ ι : Type) where
  stamp : ρ → ℤ
  tie : ρ → ι

structure Page (α : Type) where
  items : List α
  cursor : ℤ
  hasMore : Bool
  deriving DecidableEq

/-! ## The order -/

section Order
variable {ρ ι : Type} [LinearOrder ι] (keys : Keyset ρ ι)

def Keyset.le (left right : ρ) : Prop :=
  keys.stamp left < keys.stamp right ∨
    keys.stamp left = keys.stamp right ∧ keys.tie left ≤ keys.tie right

instance : DecidableRel keys.le := fun _ _ =>
  inferInstanceAs (Decidable (_ ∨ _))

theorem Keyset.le_refl (row : ρ) : keys.le row row := Or.inr ⟨rfl, le_rfl⟩

theorem Keyset.stamp_le_of_le {left right : ρ} (below : keys.le left right) :
    keys.stamp left ≤ keys.stamp right := by
  rcases below with lower | ⟨same, _⟩
  · exact lower.le
  · exact same.le

instance : Std.Total keys.le where
  total left right := by
    unfold Keyset.le
    rcases lt_trichotomy (keys.stamp left) (keys.stamp right) with lower | same | higher
    · exact Or.inl (Or.inl lower)
    · rcases le_total (keys.tie left) (keys.tie right) with tieLe | tieLe
      · exact Or.inl (Or.inr ⟨same, tieLe⟩)
      · exact Or.inr (Or.inr ⟨same.symm, tieLe⟩)
    · exact Or.inr (Or.inl higher)

instance : IsTrans ρ keys.le where
  trans first second third := by
    rintro (lower | ⟨same, tieLe⟩) (lower' | ⟨same', tieLe'⟩)
    · exact Or.inl (lower.trans lower')
    · exact Or.inl (same' ▸ lower)
    · exact Or.inl (same ▸ lower')
    · exact Or.inr ⟨same.trans same', tieLe.trans tieLe'⟩

def Keyset.sort (rows : List ρ) : List ρ := rows.insertionSort keys.le

theorem Keyset.sort_perm (rows : List ρ) : (keys.sort rows).Perm rows :=
  List.perm_insertionSort _ _

theorem Keyset.mem_sort {rows : List ρ} {row : ρ} : row ∈ keys.sort rows ↔ row ∈ rows :=
  (keys.sort_perm rows).mem_iff

theorem Keyset.sort_sorted (rows : List ρ) : (keys.sort rows).Pairwise keys.le :=
  List.pairwise_insertionSort _ _

end Order

theorem insertionSort_congr {ρ : Type} (r s : ρ → ρ → Prop) [DecidableRel r] [DecidableRel s]
    (rows : List ρ) (agree : ∀ a ∈ rows, ∀ b ∈ rows, r a b ↔ s a b) :
    rows.insertionSort r = rows.insertionSort s := by
  induction rows with
  | nil => rfl
  | cons row rest ih =>
      have insertAgrees : ∀ sorted : List ρ, (∀ b ∈ sorted, r row b ↔ s row b) →
          sorted.orderedInsert r row = sorted.orderedInsert s row := by
        intro sorted agreeHere
        induction sorted with
        | nil => rfl
        | cons b tail ihTail =>
            have tailAgrees := ihTail fun c member => agreeHere c (List.mem_cons_of_mem _ member)
            simp only [List.orderedInsert_cons, agreeHere b List.mem_cons_self, tailAgrees]
      rw [List.insertionSort_cons, List.insertionSort_cons,
        ih fun a ha b hb => agree a (List.mem_cons_of_mem _ ha) b (List.mem_cons_of_mem _ hb)]
      apply insertAgrees
      intro b member
      exact agree row List.mem_cons_self b
        (List.mem_cons_of_mem _ ((List.mem_insertionSort s).mp member))

/-- Sorted by a rank that tells them apart, the same rows come out in the same order. -/
theorem insertionSort_eq_of_perm {ρ β : Type} [LinearOrder β] (rank : ρ → β) (r : ρ → ρ → Prop)
    [DecidableRel r] (isRank : ∀ a b, r a b ↔ rank a ≤ rank b) {left right : List ρ}
    (perm : left.Perm right) (distinct : (left.map rank).Nodup) :
    left.insertionSort r = right.insertionSort r := by
  have : Std.Total r := ⟨fun a b => by
    rw [isRank, isRank]
    exact le_total (rank a) (rank b)⟩
  have : IsTrans ρ r := ⟨fun a b c first second => by
    rw [isRank] at first second ⊢
    exact first.trans second⟩
  refine List.Perm.eq_of_pairwise ?_ (List.pairwise_insertionSort r left)
    (List.pairwise_insertionSort r right)
    ((List.perm_insertionSort r left).trans (perm.trans (List.perm_insertionSort r right).symm))
  intro a b aMem bMem ab ba
  rw [isRank] at ab ba
  have inLeft := (List.mem_insertionSort r).mp aMem
  have inLeft' := perm.mem_iff.mpr ((List.mem_insertionSort r).mp bMem)
  exact List.inj_on_of_nodup_map distinct inLeft inLeft' (le_antisymm ab ba)

/-! ## Rows on one stamp -/

section Groups
variable {ρ ι : Type} (keys : Keyset ρ ι)

def atStamp (rows : List ρ) (m : ℤ) : ℕ := rows.countP fun row => decide (keys.stamp row = m)

/-- One stamp alone fills a page. -/
def Crowded (limit : ℕ) (rows : List ρ) (m : ℤ) : Prop := limit ≤ atStamp keys rows m

instance (limit : ℕ) (rows : List ρ) (m : ℤ) : Decidable (Crowded keys limit rows m) :=
  inferInstanceAs (Decidable (_ ≤ _))

variable {keys}

theorem atStamp_perm {left right : List ρ} (perm : left.Perm right) (m : ℤ) :
    atStamp keys left m = atStamp keys right m :=
  perm.countP_eq _

theorem atStamp_pos_iff (rows : List ρ) (m : ℤ) :
    0 < atStamp keys rows m ↔ ∃ row ∈ rows, keys.stamp row = m := by
  simp [atStamp, List.countP_pos_iff]

theorem atStamp_le_length (keys : Keyset ρ ι) (rows : List ρ) (m : ℤ) :
    atStamp keys rows m ≤ rows.length :=
  List.countP_le_length

theorem atStamp_append (left right : List ρ) (m : ℤ) :
    atStamp keys (left ++ right) m = atStamp keys left m + atStamp keys right m :=
  List.countP_append

theorem atStamp_eq_zero {rows : List ρ} {m : ℤ} (absent : ∀ row ∈ rows, keys.stamp row ≠ m) :
    atStamp keys rows m = 0 := by
  simpa [atStamp, List.countP_eq_zero] using absent

theorem atStamp_eq_length {rows : List ρ} {m : ℤ} (all : ∀ row ∈ rows, keys.stamp row = m) :
    atStamp keys rows m = rows.length := by
  simpa [atStamp, List.countP_eq_length] using all

end Groups

/-! ## Pages -/

/-- The page has as many rows as it may have, and at least one. -/
def isFull (limit : ℕ) (stamps : List ℤ) : Bool := stamps.length == limit && !stamps.isEmpty

def isSingle (stamps : List ℤ) : Bool := stamps.head? == stamps.getLast?

def cursorOf (limit : ℕ) (now : ℤ) (stamps : List ℤ) : ℤ :=
  if isFull limit stamps then stamps.getLastD now else now

section Delta
variable {ρ ι : Type} [LinearOrder ι] (keys : Keyset ρ ι)

/-- The rows of the window on the last row's stamp that sort after it. -/
def remainder (window : List ρ) (last : ρ) : List ρ :=
  keys.sort (window.filter fun row =>
    decide (keys.stamp row = keys.stamp last) && decide (keys.tie last < keys.tie row))

def deltaPage (limit : ℕ) (now : ℤ) (window : List ρ) : Page ρ :=
  let page := (keys.sort window).take limit
  let stamps := page.map keys.stamp
  match page.getLast? with
  | none => ⟨page, now, false⟩
  | some last =>
      if isFull limit stamps && isSingle stamps then
        ⟨page ++ remainder keys window last, keys.stamp last + 1, false⟩
      else
        ⟨page, cursorOf limit now stamps, isFull limit stamps⟩

/-- The three forms a delta page of a window can take. -/
inductive DeltaShape (limit : ℕ) (now : ℤ) (window : List ρ) : Page ρ → Prop
  | tail (items : List ρ) (short : window.length < limit) (all : items.Perm window) :
      DeltaShape limit now window ⟨items, now, false⟩
  | drained (items : List ρ) (m : ℤ) (crowded : Crowded keys limit window m)
      (least : ∀ row ∈ window, m ≤ keys.stamp row)
      (group : ∀ row, row ∈ items ↔ row ∈ window ∧ keys.stamp row = m) :
      DeltaShape limit now window ⟨items, m + 1, false⟩
  | capped (items : List ρ) (first last : ρ) (firstMem : first ∈ items) (lastMem : last ∈ items)
      (filled : limit ≤ window.length) (spread : keys.stamp first < keys.stamp last)
      (least : ∀ row ∈ window, keys.stamp first ≤ keys.stamp row)
      (inside : ∀ row ∈ items, row ∈ window ∧ keys.stamp row ≤ keys.stamp last)
      (below : ∀ row ∈ window, keys.stamp row < keys.stamp last → row ∈ items)
      (sparse : ∀ m, m < keys.stamp last → ¬ Crowded keys limit window m) :
      DeltaShape limit now window ⟨items, keys.stamp last, true⟩

variable {keys}

theorem sorted_last_is_greatest {rows : List ρ} {last : ρ}
    (sorted : rows.Pairwise keys.le) (ends : rows.getLast? = some last) :
    ∀ row ∈ rows, keys.le row last := by
  obtain ⟨init, rfl⟩ := List.getLast?_eq_some_iff.mp ends
  intro row member
  rcases List.mem_append.mp member with inInit | isLast
  · exact (List.pairwise_append.mp sorted).2.2 row inInit last List.mem_cons_self
  · rw [List.mem_singleton.mp isLast]
    exact keys.le_refl last

private theorem sorted_head_is_least {rows : List ρ} {first : ρ}
    (sorted : rows.Pairwise keys.le) (starts : rows.head? = some first) :
    ∀ row ∈ rows, keys.le first row := by
  obtain ⟨tail, rfl⟩ := List.head?_eq_some_iff.mp starts
  intro row member
  rcases List.mem_cons.mp member with isFirst | inTail
  · rw [isFirst]
    exact keys.le_refl first
  · exact (List.pairwise_cons.mp sorted).1 row inTail

/-- A sorted window cut into a page and the rest. -/
structure Cut (keys : Keyset ρ ι) (window page rest : List ρ) : Prop where
  perm : (page ++ rest).Perm window
  sorted : page.Pairwise keys.le
  cross : ∀ left ∈ page, ∀ right ∈ rest, keys.le left right

theorem cut_at_limit (limit : ℕ) (window : List ρ) :
    Cut keys window ((keys.sort window).take limit) ((keys.sort window).drop limit) := by
  have sorted := keys.sort_sorted window
  have perm := keys.sort_perm window
  rw [← List.take_append_drop limit (keys.sort window)] at sorted perm
  obtain ⟨pageSorted, -, cross⟩ := List.pairwise_append.mp sorted
  exact ⟨perm, pageSorted, cross⟩

section Cut
variable {window page rest : List ρ} {first last : ρ}

theorem Cut.mem_iff (cut : Cut keys window page rest) (row : ρ) :
    row ∈ window ↔ row ∈ page ∨ row ∈ rest := by
  rw [← cut.perm.mem_iff, List.mem_append]

theorem Cut.first_least (cut : Cut keys window page rest) (starts : page.head? = some first) :
    ∀ row ∈ window, keys.stamp first ≤ keys.stamp row := by
  intro row member
  rcases (cut.mem_iff row).mp member with inPage | inRest
  · exact keys.stamp_le_of_le (sorted_head_is_least cut.sorted starts row inPage)
  · exact keys.stamp_le_of_le (cut.cross first (List.mem_of_head? starts) row inRest)

theorem Cut.page_le_last (cut : Cut keys window page rest) (ends : page.getLast? = some last) :
    ∀ row ∈ page, keys.stamp row ≤ keys.stamp last := fun row member =>
  keys.stamp_le_of_le (sorted_last_is_greatest cut.sorted ends row member)

theorem Cut.last_le_rest (cut : Cut keys window page rest) (ends : page.getLast? = some last) :
    ∀ row ∈ rest, keys.stamp last ≤ keys.stamp row := fun row member =>
  keys.stamp_le_of_le (cut.cross last (List.mem_of_getLast? ends) row member)

theorem Cut.below (cut : Cut keys window page rest) (ends : page.getLast? = some last) :
    ∀ row ∈ window, keys.stamp row < keys.stamp last → row ∈ page := by
  intro row member lower
  rcases (cut.mem_iff row).mp member with inPage | inRest
  · exact inPage
  · exact absurd (cut.last_le_rest ends row inRest) (not_le.mpr lower)

theorem Cut.sparse (cut : Cut keys window page rest) (ends : page.getLast? = some last) :
    ∀ m, m < keys.stamp last → ¬ Crowded keys page.length window m := by
  intro m lower crowded
  have noneInRest : atStamp keys rest m = 0 :=
    atStamp_eq_zero fun row member same =>
      absurd (cut.last_le_rest ends row member) (by rw [same]; exact not_le.mpr lower)
  obtain ⟨init, initEq⟩ := List.getLast?_eq_some_iff.mp ends
  have notLast : atStamp keys [last] m = 0 :=
    atStamp_eq_zero fun row member => by
      rw [List.mem_singleton.mp member]
      exact lower.ne'
  have counted : atStamp keys window m = atStamp keys init m := by
    rw [← atStamp_perm cut.perm, atStamp_append, noneInRest, initEq, atStamp_append, notLast]
    rfl
  have bounded := atStamp_le_length keys init m
  rw [Crowded, counted, initEq, List.length_append, List.length_singleton] at crowded
  omega

theorem Cut.crowded {m : ℤ} (cut : Cut keys window page rest)
    (single : ∀ row ∈ page, keys.stamp row = m) : Crowded keys page.length window m := by
  rw [Crowded, ← atStamp_perm cut.perm, atStamp_append, atStamp_eq_length single]
  exact Nat.le_add_right _ _

theorem Cut.drained_group (cut : Cut keys window page rest) (ends : page.getLast? = some last)
    (distinct : (window.map keys.tie).Nodup)
    (single : ∀ row ∈ page, keys.stamp row = keys.stamp last) (row : ρ) :
    row ∈ page ++ remainder keys window last ↔
      row ∈ window ∧ keys.stamp row = keys.stamp last := by
  have lastMem := List.mem_of_getLast? ends
  rw [List.mem_append, remainder, keys.mem_sort, List.mem_filter]
  simp only [Bool.and_eq_true, decide_eq_true_eq]
  constructor
  · rintro (inPage | ⟨member, same, -⟩)
    · exact ⟨(cut.mem_iff row).mpr (Or.inl inPage), single row inPage⟩
    · exact ⟨member, same⟩
  · rintro ⟨member, same⟩
    rcases (cut.mem_iff row).mp member with inPage | inRest
    · exact Or.inl inPage
    · refine Or.inr ⟨member, same, ?_⟩
      have tieNe : keys.tie last ≠ keys.tie row := by
        have tiesNodup := (cut.perm.map keys.tie).nodup_iff.mpr distinct
        rw [List.map_append, List.nodup_append] at tiesNodup
        exact tiesNodup.2.2 _ (List.mem_map_of_mem lastMem) _ (List.mem_map_of_mem inRest)
      rcases cut.cross last lastMem row inRest with lower | ⟨-, tieLe⟩
      · exact absurd same lower.ne'
      · exact lt_of_le_of_ne tieLe tieNe

end Cut

/-- What one delta page can be, for a window whose tie breakers are distinct. -/
theorem deltaPage_shape (limit : ℕ) (positive : 0 < limit) (now : ℤ) (window : List ρ)
    (distinct : (window.map keys.tie).Nodup) :
    DeltaShape keys limit now window (deltaPage keys limit now window) := by
  have cut : Cut keys window _ _ := cut_at_limit limit window
  have pageLength : ((keys.sort window).take limit).length = min limit window.length := by
    rw [List.length_take, (keys.sort_perm window).length_eq]
  have restLength : ((keys.sort window).drop limit).length = window.length - limit := by
    rw [List.length_drop, (keys.sort_perm window).length_eq]
  unfold deltaPage
  generalize (keys.sort window).take limit = page at cut pageLength ⊢
  generalize (keys.sort window).drop limit = rest at cut restLength
  by_cases short : window.length < limit
  · -- A short page is the whole window.
    have restNil : rest = [] := List.eq_nil_of_length_eq_zero (by omega)
    have whole : page.Perm window := by simpa [restNil] using cut.perm
    have notFull : isFull limit (page.map keys.stamp) = false := by
      have : page.length ≠ limit := by omega
      simp [isFull, this]
    simp only [notFull, Bool.false_and, cursorOf, Bool.false_eq_true, if_false]
    split <;> exact DeltaShape.tail page short whole
  · have full : page.length = limit := by omega
    have nonempty : page ≠ [] := by
      intro empty
      rw [empty, List.length_nil] at full
      omega
    obtain ⟨last, ends⟩ : ∃ last, page.getLast? = some last :=
      ⟨page.getLast nonempty, List.getLast?_eq_getLast_of_ne_nil nonempty⟩
    obtain ⟨first, starts⟩ : ∃ first, page.head? = some first :=
      ⟨page.head nonempty, List.head?_eq_some_head nonempty⟩
    have isFullPage : isFull limit (page.map keys.stamp) = true := by
      simp [isFull, full, nonempty]
    have lastStamp : (page.map keys.stamp).getLast? = some (keys.stamp last) := by
      rw [List.getLast?_map, ends, Option.map_some]
    have firstStamp : (page.map keys.stamp).head? = some (keys.stamp first) := by
      rw [List.head?_map, starts, Option.map_some]
    have firstMem : first ∈ page := List.mem_of_head? starts
    by_cases single : keys.stamp first = keys.stamp last
    · -- One stamp fills the page: the drain completes the group.
      have pageStamp : ∀ row ∈ page, keys.stamp row = keys.stamp last := fun row member =>
        le_antisymm (cut.page_le_last ends row member)
          (single ▸ cut.first_least starts row ((cut.mem_iff row).mpr (Or.inl member)))
      have isSinglePage : isSingle (page.map keys.stamp) = true := by
        simp [isSingle, lastStamp, firstStamp, single]
      simp only [ends, isFullPage, isSinglePage, Bool.and_self, if_true]
      exact DeltaShape.drained _ _ (full ▸ cut.crowded pageStamp)
        (single ▸ cut.first_least starts) (cut.drained_group ends distinct pageStamp)
    · -- Several stamps: the page resumes on its last stamp.
      have notSingle : isSingle (page.map keys.stamp) = false := by
        simp [isSingle, lastStamp, firstStamp, single]
      have cursorExact : cursorOf limit now (page.map keys.stamp) = keys.stamp last := by
        rw [cursorOf, isFullPage, if_pos rfl, List.getLastD_eq_getLast?, lastStamp,
          Option.getD_some]
      simp only [ends, isFullPage, notSingle, Bool.and_false, Bool.false_eq_true, if_false,
        cursorExact]
      exact DeltaShape.capped page first last firstMem (List.mem_of_getLast? ends)
        (not_lt.mp short) (lt_of_le_of_ne (cut.page_le_last ends first firstMem) single)
        (cut.first_least starts)
        (fun row member => ⟨(cut.mem_iff row).mpr (Or.inl member),
          cut.page_le_last ends row member⟩) (cut.below ends) (full ▸ cut.sparse ends)

end Delta

end SupernoteTaskService.Foundation
