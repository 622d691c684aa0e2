import SupernoteTaskService.Foundation.PageExtent

/-!
# Reading a page off one sorted pass

Rows that carry the same stamps and tie breakers sort alike, whatever else they hold, and
a row that carries its tie breaker alone has its place in the order.  What is left of a
stamp after a page can then be read off the rows that the page left over.
-/

set_option autoImplicit false

namespace SupernoteTaskService.Foundation

def Page.map {α β : Type} (f : α → β) (page : Page α) : Page β :=
  ⟨page.items.map f, page.cursor, page.hasMore⟩

theorem Page.map_map {α β γ : Type} (f : α → β) (g : β → γ) (page : Page α) :
    (page.map f).map g = page.map (g ∘ f) := by
  unfold Page.map
  rw [List.map_map]

variable {ρ ι : Type} [LinearOrder ι] {keys : Keyset ρ ι} {window : List ρ}

section Order

def Keyset.place (keys : Keyset ρ ι) (row : ρ) : ℤ × ι := (keys.stamp row, keys.tie row)

abbrev placeKeys (ι : Type) : Keyset (ℤ × ι) ι := ⟨Prod.fst, Prod.snd⟩

theorem Keyset.le_iff_place {left right : ρ} :
    keys.le left right ↔ toLex (keys.place left) ≤ toLex (keys.place right) :=
  (Prod.Lex.toLex_le_toLex (x := keys.place left) (y := keys.place right)).symm

theorem Keyset.map_sort (keys : Keyset ρ ι) (rows : List ρ) :
    (keys.sort rows).map keys.place = (placeKeys ι).sort (rows.map keys.place) := by
  apply List.map_insertionSort
  intro left _ right _
  exact Iff.rfl

theorem Keyset.sort_map (keys : Keyset ρ ι) {σ : Type} (keys' : Keyset σ ι) (f : ρ → σ)
    (stamp : ∀ row, keys'.stamp (f row) = keys.stamp row)
    (tie : ∀ row, keys'.tie (f row) = keys.tie row) (rows : List ρ) :
    (keys.sort rows).map f = keys'.sort (rows.map f) := by
  apply List.map_insertionSort
  intro left _ right _
  rw [Keyset.le, Keyset.le, stamp, stamp, tie, tie]

theorem Keyset.sort_eq_of_perm {left right : List ρ} (perm : left.Perm right)
    (distinct : (left.map keys.tie).Nodup) : keys.sort left = keys.sort right := by
  apply insertionSort_eq_of_perm (fun row => toLex (keys.place row)) _ (fun _ _ => keys.le_iff_place)
    perm
  apply List.Nodup.of_map (fun place => (ofLex place).2)
  rw [List.map_map]
  exact distinct

theorem Keyset.sort_strict (keys : Keyset ρ ι) (distinct : (window.map keys.tie).Nodup) :
    (keys.sort window).Pairwise fun left right => keys.before left right = true := by
  have ties := ((keys.sort_perm window).map keys.tie).nodup_iff.mpr distinct
  rw [List.Nodup, List.pairwise_map] at ties
  apply (List.pairwise_and_iff.mpr ⟨keys.sort_sorted window, ties⟩).imp
  intro left right ⟨le, different⟩
  exact Keyset.before_of_le le different

end Order

/-- What a page leaves of the stamp of its last row stands right behind it. -/
theorem remainder_eq_rest (limit : ℕ) (distinct : (window.map keys.tie).Nodup) {last : ρ}
    (ends : ((keys.sort window).take limit).getLast? = some last) :
    remainder keys window last = ((keys.sort window).drop limit).filter fun row =>
      decide (keys.stamp row = keys.stamp last) := by
  have cut : Cut keys window _ _ := cut_at_limit limit window
  have restSorted : ((keys.sort window).drop limit).Pairwise keys.le :=
    (keys.sort_sorted window).sublist (List.drop_sublist _ _)
  generalize (keys.sort window).take limit = page at cut ends
  generalize (keys.sort window).drop limit = rest at cut restSorted ⊢
  have ties := (cut.perm.map keys.tie).nodup_iff.mpr distinct
  rw [List.map_append, List.nodup_append] at ties
  have perm : (window.filter fun row => decide (keys.stamp row = keys.stamp last) &&
      decide (keys.tie last < keys.tie row)).Perm
        (rest.filter fun row => decide (keys.stamp row = keys.stamp last)) := by
    rw [List.perm_ext_iff_of_nodup ((List.Nodup.of_map _ distinct).filter _)
      ((List.Nodup.of_map _ ties.2.1).filter _)]
    intro row
    simp only [List.mem_filter, Bool.and_eq_true, decide_eq_true_eq, cut.mem_iff]
    constructor
    · intro ⟨member, same, after⟩
      cases member with
      | inl inPage =>
          cases sorted_last_is_greatest cut.sorted ends row inPage with
          | inl lower => omega
          | inr tied => exact absurd after (not_lt.mpr tied.2)
      | inr inRest => exact ⟨inRest, same⟩
    · intro ⟨inRest, same⟩
      have lastMem := List.mem_of_getLast? ends
      have different := ties.2.2 _ (List.mem_map_of_mem lastMem) _ (List.mem_map_of_mem inRest)
      cases cut.cross last lastMem row inRest with
      | inl lower => omega
      | inr tied => exact ⟨Or.inr inRest, same, lt_of_le_of_ne tied.2 different⟩
  have restSort : keys.sort (rest.filter fun row => decide (keys.stamp row = keys.stamp last)) =
      rest.filter fun row => decide (keys.stamp row = keys.stamp last) :=
    List.Pairwise.insertionSort_eq (restSorted.filter _)
  rw [← restSort]
  apply Keyset.sort_eq_of_perm perm
  exact distinct.sublist (List.filter_sublist.map keys.tie)

end SupernoteTaskService.Foundation
