import SupernoteTaskService.Foundation.CursorLoop
import SupernoteTaskService.Foundation.Fallible

/-!
# Going on after every full page

A client that calls again as long as a page has `limit` items, whatever the page says
of itself.  Such a chain is the cursor loop over pages that announce more exactly when
they are full.  Over rows that do not change every full page moves the cursor, so the
chain comes to a page below the limit, and by then it has seen the whole window.
-/

set_option autoImplicit false

namespace SupernoteTaskService.Foundation

section Chain
variable {ε α β : Type}

def announceFull (limit : ℕ) (page : Page α) : Page α :=
  { page with hasMore := decide (limit ≤ page.items.length) }

/-- Call again from the returned cursor until a page has fewer than `limit` items. -/
def followFull (limit : ℕ) (call : ℤ → ℤ → Except ε (Page α)) :
    ℤ → List ℤ → Except ε (Option (Followed α)) :=
  followCursor fun since now => Except.map (announceFull limit) (call since now)

theorem Renders.length_eq {render : α → Except ε β} {raw : Page α} {page : Page β}
    (renders : Renders render raw page) : page.items.length = raw.items.length :=
  length_of_mapM_ok renders.1

theorem Renders.announceFull {render : α → Except ε β} {raw : Page α} {page : Page β} (limit : ℕ)
    (renders : Renders render raw page) :
    Renders render (announceFull limit raw) (announceFull limit page) := by
  refine ⟨renders.1, renders.2.1, ?_⟩
  simp only [Foundation.announceFull, renders.length_eq]

theorem followFull_render {render : α → Except ε β} {raw : ℤ → ℤ → Page α}
    {call : ℤ → ℤ → Except ε (Page β)} (limit : ℕ)
    (renders : ∀ since now page, call since now = .ok page → Renders render (raw since now) page)
    (nows : List ℤ) (since : ℤ) (result : Followed β)
    (stopped : followFull limit call since nows = .ok (some result)) :
    ∃ items, items.mapM render = .ok result.items ∧
      followFull limit (fun since now => .ok (raw since now)) since nows =
        (.ok (some ⟨items, result.stoppedAt⟩) : Except ε _) := by
  refine followCursor_render (fun since now page called => ?_) nows since result stopped
  obtain ⟨answer, answered, rfl⟩ := map_eq_ok_iff.mp called
  exact (renders since now answer answered).announceFull limit

end Chain

/-! ## Full pages -/

section Full
variable {ρ ι : Type} {keys : Keyset ρ ι} {limit : ℕ} {now : ℤ} {window : List ρ} {page : Page ρ}

theorem deltaPage_full_iff [LinearOrder ι] (keys : Keyset ρ ι) (limit : ℕ) (now : ℤ)
    (window : List ρ) :
    limit ≤ (deltaPage keys limit now window).items.length ↔ limit ≤ window.length := by
  have taken : ((keys.sort window).take limit).length = min limit window.length := by
    rw [List.length_take, (keys.sort_perm window).length_eq]
  unfold deltaPage
  dsimp only
  split
  · dsimp only
    omega
  · split
    · rename_i full
      have filled : ((keys.sort window).take limit).length = limit := by
        simp only [isFull, Bool.and_eq_true, beq_iff_eq, List.length_map] at full
        exact full.1.1
      rw [List.length_append]
      omega
    · dsimp only
      omega

theorem DeltaShape.mem_of_below_cursor (shape : DeltaShape keys limit now window page) :
    ∀ row ∈ window, keys.stamp row < page.cursor → row ∈ page.items := by
  intro row member passed
  cases shape with
  | tail items short all => exact all.mem_iff.mpr member
  | drained items m crowded least group =>
      have lower := least row member
      exact (group row).mpr ⟨member, by dsimp only at passed; omega⟩
  | capped items first last firstMem lastMem filled spread least inside below sparse =>
      exact below row member passed

/-- The cursor never passes more than the millisecond of the clock. -/
theorem DeltaShape.cursor_le_succ (positive : 0 < limit)
    (shape : DeltaShape keys limit now window page)
    (untilNow : ∀ row ∈ window, keys.stamp row ≤ now) : page.cursor ≤ now + 1 := by
  cases shape with
  | tail items short all => exact (lt_add_one now).le
  | drained items m crowded least group =>
      obtain ⟨witness, witnessMem, rfl⟩ :=
        (atStamp_pos_iff window m).mp (lt_of_lt_of_le positive crowded)
      exact add_le_add_left (untilNow witness witnessMem) 1
  | capped items first last firstMem lastMem filled spread least inside below sparse =>
      exact (untilNow last (inside last lastMem).1).trans (lt_add_one now).le

theorem DeltaShape.passes_row (positive : 0 < limit)
    (shape : DeltaShape keys limit now window page) (full : limit ≤ window.length) :
    ∃ row ∈ window, keys.stamp row < page.cursor := by
  cases shape with
  | tail items short all => omega
  | drained items m crowded least group =>
      obtain ⟨witness, witnessMem, rfl⟩ :=
        (atStamp_pos_iff window m).mp (lt_of_lt_of_le positive crowded)
      exact ⟨witness, witnessMem, lt_add_one _⟩
  | capped items first last firstMem lastMem filled spread least inside below sparse =>
      exact ⟨first, (inside first firstMem).1, spread⟩

end Full

/-! ## The chain over rows that do not change -/

section Received
variable {ε ρ ι : Type} [LinearOrder ι] {keys : Keyset ρ ι}

/-- A chain that came to a page below the limit has received exactly the window from
its first cursor to the clock of that page. -/
theorem followFull_mem_iff {rows : List ρ} (distinct : (rows.map keys.tie).Nodup)
    {limit : ℕ} (positive : 0 < limit) (nows : List ℤ) :
    ∀ (since : ℤ) (result : Followed ρ), nows.Pairwise (· ≤ ·) →
      followFull (ε := ε) limit
        (fun since now => .ok (deltaPage keys limit now (windowOf keys rows since now)))
        since nows = .ok (some result) →
      result.stoppedAt ∈ nows ∧
        ∀ row, row ∈ result.items ↔ row ∈ windowOf keys rows since result.stoppedAt := by
  induction nows with
  | nil =>
      intro since result _ stopped
      cases stopped
  | cons now later ih =>
      intro since result monotone stopped
      obtain ⟨page, called, outcome⟩ := followCursor_cons_eq_some stopped
      cases called
      have shape := deltaPage_shape limit positive now (windowOf keys rows since now)
        (windowOf_ties_nodup distinct since now)
      have fullIff := deltaPage_full_iff keys limit now (windowOf keys rows since now)
      obtain ⟨nowLe, laterMonotone⟩ := List.pairwise_cons.mp monotone
      rcases outcome with ⟨notFull, rfl⟩ | ⟨full, rest, continued, rfl⟩
      · rw [announceFull, decide_eq_false_iff_not, fullIff, not_le] at notFull
        exact ⟨List.mem_cons_self, fun row => (shape.of_short notFull).1.mem_iff⟩
      · rw [announceFull, decide_eq_true_eq, fullIff] at full
        obtain ⟨stoppedMem, restMem⟩ := ih _ rest laterMonotone continued
        have nowLeStop := nowLe rest.stoppedAt stoppedMem
        have cursorLe := shape.cursor_le_succ positive fun row member =>
          (mem_windowOf.mp member).2.2
        obtain ⟨passed, passedMem, lower⟩ := shape.passes_row positive full
        have fromSince := (mem_windowOf.mp passedMem).2.1
        refine ⟨List.mem_cons_of_mem _ stoppedMem, fun row => ?_⟩
        rw [List.mem_append, restMem, mem_windowOf, mem_windowOf]
        constructor
        · rintro (inPage | ⟨member, fromCursor, untilStop⟩)
          · obtain ⟨member, sinceLe, leNow⟩ := mem_windowOf.mp (shape.items_subset row inPage)
            exact ⟨member, sinceLe, leNow.trans nowLeStop⟩
          · exact ⟨member, (fromSince.trans lower.le).trans fromCursor, untilStop⟩
        · intro ⟨member, sinceLe, untilStop⟩
          -- What lies below the cursor came with this page, the rest with a later one.
          by_cases early : keys.stamp row <
              (deltaPage keys limit now (windowOf keys rows since now)).cursor
          · refine Or.inl (shape.mem_of_below_cursor row (mem_windowOf.mpr ?_) early)
            exact ⟨member, sinceLe, by omega⟩
          · exact Or.inr ⟨member, not_lt.mp early, untilStop⟩

end Received

end SupernoteTaskService.Foundation
