import SupernoteTaskService.Foundation.CursorLoop

/-!
# How far a page reaches

Three questions about a delta page of a window, each answered by counting rows of the
window: which rows stand on the page that the limit cuts, how many rows come out in the
end, and whether everything up to the announced cursor comes out.
-/

set_option autoImplicit false

namespace SupernoteTaskService.Foundation

variable {ρ ι : Type} [LinearOrder ι]

section Place
variable (keys : Keyset ρ ι)

def Keyset.before (left right : ρ) : Bool :=
  decide (keys.stamp left < keys.stamp right) ||
    (decide (keys.stamp left = keys.stamp right) && decide (keys.tie left < keys.tie right))

variable {keys}

theorem Keyset.before_iff {left right : ρ} :
    keys.before left right = true ↔ ¬ keys.le right left := by
  simp only [Keyset.before, Keyset.le, Bool.or_eq_true, Bool.and_eq_true, decide_eq_true_eq]
  rcases lt_trichotomy (keys.stamp left) (keys.stamp right) with lower | same | higher
  · exact iff_of_true (Or.inl lower) (by omega)
  · rw [same]
    simp
  · exact iff_of_false (by omega) (by simp [higher])

theorem Keyset.before_of_le {left right : ρ} (le : keys.le left right)
    (different : keys.tie left ≠ keys.tie right) : keys.before left right = true := by
  rw [Keyset.before_iff]
  intro back
  rcases le with lower | ⟨same, tieLe⟩
  · exact absurd (keys.stamp_le_of_le back) (not_le.mpr lower)
  · rcases back with lower | ⟨-, tieLe'⟩
    · exact lower.ne same.symm
    · exact different (le_antisymm tieLe tieLe')

theorem Cut.not_before_page {window page rest : List ρ} (cut : Cut keys window page rest)
    {left right : ρ} (inPage : left ∈ page) (inRest : right ∈ rest) :
    keys.before right left = false := by
  rw [Bool.eq_false_iff, Ne, Keyset.before_iff, not_not]
  exact cut.cross left inPage right inRest

theorem mem_take_sort_iff (limit : ℕ) {window : List ρ} (distinct : (window.map keys.tie).Nodup)
    (row : ρ) :
    row ∈ (keys.sort window).take limit ↔
      row ∈ window ∧ (window.countP fun other => keys.before other row) < limit := by
  have cut : Cut keys window _ _ := cut_at_limit limit window
  have tiesNodup := (cut.perm.map keys.tie).nodup_iff.mpr distinct
  have counted : ∀ row, (window.countP fun other => keys.before other row) =
      ((keys.sort window).take limit).countP (fun other => keys.before other row) +
        ((keys.sort window).drop limit).countP fun other => keys.before other row := by
    intro row
    rw [← cut.perm.countP_eq, List.countP_append]
  have pageLength : ((keys.sort window).take limit).length ≤ limit := List.length_take_le _ _
  have dropped : (keys.sort window).drop limit ≠ [] →
      ((keys.sort window).take limit).length = limit := by
    intro nonempty
    have length := List.length_pos_iff.mpr nonempty
    rw [List.length_drop] at length
    rw [List.length_take]
    omega
  generalize (keys.sort window).take limit = page at *
  generalize (keys.sort window).drop limit = rest at *
  rw [List.map_append, List.nodup_append] at tiesNodup
  rw [cut.mem_iff, counted]
  constructor
  · intro inPage
    have noneInRest : (rest.countP fun other => keys.before other row) = 0 := by
      rw [List.countP_eq_zero]
      intro other inRest
      rw [cut.not_before_page inPage inRest]
      exact Bool.false_ne_true
    -- The row itself does not sort before itself.
    have notAll : (page.countP fun other => keys.before other row) < page.length := by
      rw [List.countP_lt_length_iff]
      exact ⟨row, inPage, Bool.eq_false_iff.mpr fun itself =>
        Keyset.before_iff.mp itself (keys.le_refl row)⟩
    exact ⟨Or.inl inPage, by omega⟩
  · intro ⟨member, few⟩
    rcases member with inPage | inRest
    · exact inPage
    · have all : (page.countP fun other => keys.before other row) = page.length := by
        rw [List.countP_eq_length]
        intro other inPage
        exact Keyset.before_of_le (cut.cross other inPage row inRest)
          (tiesNodup.2.2 _ (List.mem_map_of_mem inPage) _ (List.mem_map_of_mem inRest))
      have full := dropped (List.ne_nil_of_mem inRest)
      omega

theorem page_or_behind (limit : ℕ) {window : List ρ} (distinct : (window.map keys.tie).Nodup)
    {row : ρ} (member : row ∈ window) :
    row ∈ (keys.sort window).take limit ∨
      ((keys.sort window).take limit).length = limit ∧
        ∀ onPage ∈ (keys.sort window).take limit, keys.before onPage row = true := by
  have cut : Cut keys window _ _ := cut_at_limit limit window
  have tiesNodup := (cut.perm.map keys.tie).nodup_iff.mpr distinct
  rw [List.map_append, List.nodup_append] at tiesNodup
  rcases (cut.mem_iff row).mp member with inPage | inRest
  · exact Or.inl inPage
  · have length := List.length_pos_of_mem inRest
    rw [List.length_drop] at length
    refine Or.inr ⟨?_, fun onPage inPage => ?_⟩
    · rw [List.length_take]
      omega
    · exact Keyset.before_of_le (cut.cross onPage inPage row inRest)
        (tiesNodup.2.2 _ (List.mem_map_of_mem inPage) _ (List.mem_map_of_mem inRest))

end Place

/-! ## The number of rows -/

section Extent
variable {keys : Keyset ρ ι} {limit : ℕ} {now : ℤ} {window : List ρ}

theorem deltaPage_length_of_more (more : (deltaPage keys limit now window).hasMore = true) :
    (deltaPage keys limit now window).items.length = limit := by
  unfold deltaPage at more ⊢
  dsimp only at more ⊢
  split at more
  · cases more
  · split at more
    · cases more
    · rename_i notSingle
      rw [if_neg notSingle]
      simp only [isFull, Bool.and_eq_true, beq_iff_eq, List.length_map] at more
      exact more.1

theorem deltaPage_items_nodup (distinct : (window.map keys.tie).Nodup) :
    (deltaPage keys limit now window).items.Nodup := by
  have nodup : window.Nodup := List.Nodup.of_map keys.tie distinct
  have pageNodup : ((keys.sort window).take limit).Nodup :=
    ((keys.sort_perm window).nodup_iff.mpr nodup).sublist (List.take_sublist _ _)
  have sorted : ((keys.sort window).take limit).Pairwise keys.le :=
    (keys.sort_sorted window).sublist (List.take_sublist _ _)
  unfold deltaPage
  dsimp only
  split
  · exact pageNodup
  · rename_i last ends
    split
    · refine List.nodup_append.mpr ⟨pageNodup, ?_, ?_⟩
      · exact (keys.sort_perm _).nodup_iff.mpr (nodup.filter _)
      · -- What is drained sorts after the last row of the page.
        intro row inPage other inRemainder same
        subst same
        rw [remainder, keys.mem_sort, List.mem_filter] at inRemainder
        simp only [Bool.and_eq_true, decide_eq_true_eq] at inRemainder
        obtain ⟨-, sameStamp, after⟩ := inRemainder
        rcases sorted_last_is_greatest sorted ends row inPage with lower | ⟨-, tieLe⟩
        · omega
        · exact absurd after (not_lt.mpr tieLe)
    · exact pageNodup

/-- How many rows the page has in the end: it keeps any bound that the limit keeps, unless
the earliest stamp of the window carries more rows than that. -/
theorem deltaPage_length_le_iff {bound : ℕ} (positive : 0 < limit) (atLeast : limit ≤ bound)
    (distinct : (window.map keys.tie).Nodup) :
    (deltaPage keys limit now window).items.length ≤ bound ↔
      ¬ ∃ m, (∀ row ∈ window, m ≤ keys.stamp row) ∧ bound < atStamp keys window m := by
  have shape := deltaPage_shape limit positive now window distinct
  have nodup : (deltaPage keys limit now window).items.Nodup := deltaPage_items_nodup distinct
  have length : (deltaPage keys limit now window).hasMore = true →
      (deltaPage keys limit now window).items.length = limit := deltaPage_length_of_more
  generalize deltaPage keys limit now window = page at shape nodup length
  cases shape with
  | tail items short all =>
      have few : window.length ≤ bound := short.le.trans atLeast
      refine iff_of_true (all.length_eq.le.trans few) ?_
      intro ⟨m, _, exceeds⟩
      have bounded := atStamp_le_length keys window m
      omega
  | drained items m crowded least group =>
      have perm : items.Perm (window.filter fun row => decide (keys.stamp row = m)) := by
        refine (List.perm_ext_iff_of_nodup nodup ((List.Nodup.of_map _ distinct).filter _)).mpr ?_
        intro row
        rw [group, List.mem_filter, decide_eq_true_eq]
      have count : items.length = atStamp keys window m := by
        rw [perm.length_eq, atStamp, List.countP_eq_length_filter]
      dsimp only
      rw [count]
      constructor
      · intro few ⟨m', least', exceeds⟩
        have occupied : 0 < atStamp keys window m' := by omega
        obtain ⟨row, member, rfl⟩ := (atStamp_pos_iff window m').mp occupied
        obtain ⟨row', member', rfl⟩ := (atStamp_pos_iff window m).mp (positive.trans_le crowded)
        rw [le_antisymm (least' row' member') (least row member)] at exceeds
        omega
      · intro notOver
        by_contra many
        exact notOver ⟨m, least, not_le.mp many⟩
  | capped items first last firstMem lastMem filled spread least inside below sparse =>
      refine iff_of_true ((length rfl).le.trans atLeast) ?_
      intro ⟨m, least', exceeds⟩
      have early := least' first (inside first firstMem).1
      exact sparse m (early.trans_lt spread) (atLeast.trans exceeds.le)

end Extent

/-! ## Closed windows -/

section Closed
variable {keys : Keyset ρ ι} {limit : ℕ} {now : ℤ} {window rows : List ρ}

def belowStamp (keys : Keyset ρ ι) (rows : List ρ) (m : ℤ) : ℕ :=
  rows.countP fun row => decide (keys.stamp row < m)

def uptoStamp (keys : Keyset ρ ι) (rows : List ρ) (m : ℤ) : ℕ :=
  rows.countP fun row => decide (keys.stamp row ≤ m)

/-- The limit does not fall between two rows of one stamp behind an earlier one, and where
the earliest stamp fills the page, no row of `rows` carries the stamp after it. -/
structure Closes (keys : Keyset ρ ι) (limit : ℕ) (window rows : List ρ) : Prop where
  between : ∀ m, 0 < belowStamp keys window m → belowStamp keys window m < limit →
    uptoStamp keys window m ≤ limit
  after : ∀ m, (∀ row ∈ window, m ≤ keys.stamp row) → Crowded keys limit window m →
    ∀ row ∈ rows, keys.stamp row ≠ m + 1

section Page
omit [LinearOrder ι]
variable {items : List ρ} {m : ℤ}

theorem uptoStamp_mono {m' : ℤ} (le : m ≤ m') :
    uptoStamp keys window m ≤ uptoStamp keys window m' := by
  refine List.countP_mono_left fun row _ early => ?_
  rw [decide_eq_true_eq] at early ⊢
  exact early.trans le

theorem atStamp_le_belowStamp {m' : ℤ} (lt : m < m') :
    atStamp keys window m ≤ belowStamp keys window m' := by
  refine List.countP_mono_left fun row _ same => ?_
  rw [decide_eq_true_eq] at same ⊢
  exact same ▸ lt

theorem length_le_belowStamp (nodup : items.Nodup)
    (inside : ∀ row ∈ items, row ∈ window ∧ keys.stamp row < m) :
    items.length ≤ belowStamp keys window m := by
  rw [belowStamp, List.countP_eq_length_filter]
  refine (List.subperm_of_subset nodup fun row member => ?_).length_le
  exact List.mem_filter.mpr ⟨(inside row member).1, decide_eq_true (inside row member).2⟩

theorem uptoStamp_le_length (nodup : window.Nodup)
    (covered : ∀ row ∈ window, keys.stamp row ≤ m → row ∈ items) :
    uptoStamp keys window m ≤ items.length := by
  rw [uptoStamp, List.countP_eq_length_filter]
  refine (List.subperm_of_subset (nodup.filter _) fun row member => ?_).length_le
  obtain ⟨inWindow, early⟩ := List.mem_filter.mp member
  exact covered row inWindow (of_decide_eq_true early)

theorem belowStamp_lt_length (nodup : window.Nodup) {last : ρ} (lastMem : last ∈ items)
    (below : ∀ row ∈ window, keys.stamp row < keys.stamp last → row ∈ items) :
    belowStamp keys window (keys.stamp last) < items.length := by
  have withLast : (last :: window.filter fun row =>
      decide (keys.stamp row < keys.stamp last)).Nodup := by
    refine List.nodup_cons.mpr ⟨fun listed => ?_, nodup.filter _⟩
    exact lt_irrefl _ (of_decide_eq_true (List.mem_filter.mp listed).2)
  have onPage : (last :: window.filter fun row =>
      decide (keys.stamp row < keys.stamp last)) ⊆ items := by
    intro row member
    rcases List.mem_cons.mp member with rfl | lower
    · exact lastMem
    · obtain ⟨inWindow, lower⟩ := List.mem_filter.mp lower
      exact below row inWindow (of_decide_eq_true lower)
  have fits := (List.subperm_of_subset withLast onPage).length_le
  rw [List.length_cons] at fits
  rw [belowStamp, List.countP_eq_length_filter]
  omega

theorem mem_of_uptoStamp_le (nodup : items.Nodup)
    (inside : ∀ row ∈ items, row ∈ window ∧ keys.stamp row ≤ m)
    (fits : uptoStamp keys window m ≤ items.length) {row : ρ} (inWindow : row ∈ window)
    (early : keys.stamp row ≤ m) : row ∈ items := by
  have subset : ∀ row ∈ items, row ∈ window.filter fun row => decide (keys.stamp row ≤ m) := by
    intro row member
    exact List.mem_filter.mpr ⟨(inside row member).1, decide_eq_true (inside row member).2⟩
  rw [uptoStamp, List.countP_eq_length_filter] at fits
  have same := (List.subperm_of_subset nodup subset).perm_of_length_le fits
  exact same.mem_iff.mpr (List.mem_filter.mpr ⟨inWindow, decide_eq_true early⟩)

theorem drained_closed_iff (positive : 0 < limit) (crowded : Crowded keys limit window m)
    (untilNow : ∀ row ∈ window, keys.stamp row ≤ now)
    (ahead : ∀ row ∈ rows, keys.stamp row ≤ now → row ∈ window)
    (least : ∀ row ∈ window, m ≤ keys.stamp row)
    (group : ∀ row, row ∈ items ↔ row ∈ window ∧ keys.stamp row = m) :
    (∀ row ∈ rows, keys.stamp row ≤ m + 1 → row ∈ items) ↔ Closes keys limit window rows := by
  obtain ⟨witness, witnessMem, onStamp⟩ := (atStamp_pos_iff window m).mp
    (positive.trans_le crowded)
  have notLate : m ≤ now := onStamp ▸ untilNow witness witnessMem
  constructor
  · intro covered
    constructor
    · -- Below any later stamp there is the whole crowded one.
      intro m' occupied few
      obtain ⟨row, member, lower⟩ := List.countP_pos_iff.mp occupied
      have later : m < m' := (least row member).trans_lt (of_decide_eq_true lower)
      have many : atStamp keys window m ≤ belowStamp keys window m' := atStamp_le_belowStamp later
      rw [Crowded] at crowded
      omega
    · intro m' least' crowded' row member next
      obtain ⟨witness', witnessMem', onStamp'⟩ := (atStamp_pos_iff window m').mp
        (positive.trans_le crowded')
      have early := least' witness witnessMem
      have late := least witness' witnessMem'
      have out := covered row member (by omega)
      have same := ((group row).mp out).2
      omega
  · intro closes row member early
    have notNext := closes.after m least crowded row member
    have inWindow := ahead row member (by omega)
    have lower := least row inWindow
    exact (group row).mpr ⟨inWindow, by omega⟩

theorem capped_closed_iff (windowNodup : window.Nodup) (nodup : items.Nodup)
    (count : items.length = limit) (untilNow : ∀ row ∈ window, keys.stamp row ≤ now)
    (within : ∀ row ∈ window, row ∈ rows)
    (ahead : ∀ row ∈ rows, keys.stamp row ≤ now → row ∈ window)
    {first last : ρ} (firstMem : first ∈ items) (lastMem : last ∈ items)
    (spread : keys.stamp first < keys.stamp last)
    (inside : ∀ row ∈ items, row ∈ window ∧ keys.stamp row ≤ keys.stamp last)
    (below : ∀ row ∈ window, keys.stamp row < keys.stamp last → row ∈ items)
    (sparse : ∀ m, m < keys.stamp last → ¬ Crowded keys limit window m) :
    (∀ row ∈ rows, keys.stamp row ≤ keys.stamp last → row ∈ items) ↔
      Closes keys limit window rows := by
  have notLate : keys.stamp last ≤ now := untilNow last (inside last lastMem).1
  constructor
  · intro covered
    have atLast : uptoStamp keys window (keys.stamp last) ≤ limit := by
      rw [← count]
      exact uptoStamp_le_length windowNodup fun row member => covered row (within row member)
    constructor
    · intro m occupied few
      rcases le_or_gt m (keys.stamp last) with notPast | past
      · exact (uptoStamp_mono notPast).trans atLast
      · -- Below a stamp past the page there is the whole page.
        have many : items.length ≤ belowStamp keys window m :=
          length_le_belowStamp nodup fun row member =>
            ⟨(inside row member).1, (inside row member).2.trans_lt past⟩
        omega
    · intro m least crowded
      exact absurd crowded (sparse m ((least first (inside first firstMem).1).trans_lt spread))
  · intro closes row member early
    have occupied : 0 < belowStamp keys window (keys.stamp last) :=
      List.countP_pos_iff.mpr ⟨first, (inside first firstMem).1, decide_eq_true spread⟩
    have few : belowStamp keys window (keys.stamp last) < limit := by
      rw [← count]
      exact belowStamp_lt_length windowNodup lastMem below
    have fits : uptoStamp keys window (keys.stamp last) ≤ items.length := by
      rw [count]
      exact closes.between (keys.stamp last) occupied few
    exact mem_of_uptoStamp_le nodup inside fits (ahead row member (early.trans notLate)) early

end Page

/-- Everything up to the announced cursor comes out exactly when the window closes there.
`others` are the rows of the window, and possibly rows from after the clock. -/
theorem closed_iff (positive : 0 < limit) (distinct : (window.map keys.tie).Nodup)
    (untilNow : ∀ row ∈ window, keys.stamp row ≤ now) (others : List ρ)
    (within : ∀ row ∈ window, row ∈ others)
    (ahead : ∀ row ∈ others, keys.stamp row ≤ now → row ∈ window) :
    (∀ row ∈ others, keys.stamp row ≤ (deltaPage keys limit now window).cursor →
        row ∈ (deltaPage keys limit now window).items) ↔
      Closes keys limit window others := by
  have shape := deltaPage_shape limit positive now window distinct
  have nodup : (deltaPage keys limit now window).items.Nodup := deltaPage_items_nodup distinct
  have length : (deltaPage keys limit now window).hasMore = true →
      (deltaPage keys limit now window).items.length = limit := deltaPage_length_of_more
  have windowNodup := List.Nodup.of_map _ distinct
  generalize deltaPage keys limit now window = page at shape nodup length
  cases shape with
  | tail items short all =>
      refine iff_of_true (fun row member early => ?_) ⟨fun m _ _ => ?_, fun m _ crowded => ?_⟩
      · exact all.mem_iff.mpr (ahead row member early)
      · exact (List.countP_le_length.trans_lt short).le
      · exact absurd crowded (not_le.mpr ((atStamp_le_length keys window m).trans_lt short))
  | drained items m crowded least group =>
      exact drained_closed_iff positive crowded untilNow ahead least group
  | capped items first last firstMem lastMem filled spread least inside below sparse =>
      exact capped_closed_iff windowNodup nodup (length rfl) untilNow within ahead firstMem lastMem
        spread inside below sparse

end Closed

end SupernoteTaskService.Foundation
