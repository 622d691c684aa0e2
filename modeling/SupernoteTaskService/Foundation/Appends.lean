import SupernoteTaskService.Foundation.Runs

/-!
# Reading a number and appending it

A participant reads the next free number of a list in one step and appends it in another,
and other participants may step in between.  Every append is a new greatest number exactly
when no append falls between the two steps of another participant.
-/

set_option autoImplicit false

namespace SupernoteTaskService.Foundation

/-- One behind the greatest number, counted from zero. -/
def nextNumber (placed : List ℤ) : ℤ := placed.max?.getD (-1) + 1

theorem lt_nextNumber {placed : List ℤ} {number : ℤ} (member : number ∈ placed) :
    number < nextNumber placed := by
  unfold nextNumber
  cases greatest : placed.max? with
  | none =>
      rw [List.max?_eq_none_iff.mp greatest] at member
      exact absurd member List.not_mem_nil
  | some m =>
      have bounded := (List.max?_eq_some_iff.mp greatest).2 number member
      rw [Option.getD_some]
      omega

theorem nextNumber_le {placed : List ℤ} {number : ℤ} (nonneg : placed = [] → 0 ≤ number)
    (above : ∀ other ∈ placed, other < number) : nextNumber placed ≤ number := by
  unfold nextNumber
  cases greatest : placed.max? with
  | none =>
      have atLeast := nonneg (List.max?_eq_none_iff.mp greatest)
      rw [Option.getD_none]
      omega
  | some m =>
      have below := above m (List.max?_mem greatest)
      rw [Option.getD_some]
      omega

theorem nextNumber_nonneg {placed : List ℤ} (nonneg : ∀ number ∈ placed, 0 ≤ number) :
    0 ≤ nextNumber placed := by
  unfold nextNumber
  cases greatest : placed.max? with
  | none => decide
  | some m =>
      have placedNonneg := nonneg m (List.max?_mem greatest)
      rw [Option.getD_some]
      omega

theorem nextNumber_perm {left right : List ℤ} (perm : left.Perm right) :
    nextNumber left = nextNumber right := by
  have greatest : ∀ a b : List ℤ, a.Perm b → ∀ m, a.max? = some m → b.max? = some m := by
    intro a b perm m isMax
    rw [List.max?_eq_some_iff] at isMax ⊢
    exact ⟨perm.mem_iff.mp isMax.1, fun other member => isMax.2 other (perm.mem_iff.mpr member)⟩
  have same : left.max? = right.max? := by
    ext m
    exact ⟨greatest left right perm m, greatest right left perm.symm m⟩
  rw [nextNumber, nextNumber, same]

/-! ## The steps -/

inductive Move (ι : Type) where
  | select (who : ι)
  | insert (who : ι)
  deriving DecidableEq

variable {ι : Type}

def Move.who : Move ι → ι
  | .select who => who
  | .insert who => who

structure Board (ι : Type) where
  placed : List ℤ
  chosen : ι → Option ℤ

/-- No append falls between the two steps of a participant. -/
def Undisturbed (moves : List (Move ι)) : Prop :=
  ∀ before who between after, moves = before ++ .select who :: (between ++ .insert who :: after) →
    ∀ other, Move.insert other ∉ between

theorem undisturbed_in_turn (turns : List ι) (distinct : turns.Nodup) :
    Undisturbed (turns.flatMap fun who => [.select who, .insert who]) := by
  induction turns with
  | nil =>
      intro before who between after split
      simp at split
  | cons first turns ih =>
      rw [List.nodup_cons] at distinct
      intro before who between after split other member
      rw [List.flatMap_cons, List.cons_append, List.cons_append, List.nil_append] at split
      cases before with
      | nil =>
          -- The first participant inserts at once, and not again.
          rw [List.nil_append, List.cons.injEq, Move.select.injEq] at split
          obtain ⟨rfl, split⟩ := split
          cases between with
          | nil => cases member
          | cons move between =>
              rw [List.cons_append, List.cons.injEq] at split
              have again : Move.insert first ∈ turns.flatMap
                  fun who => [Move.select who, .insert who] := by
                rw [split.2]
                simp
              simp only [List.mem_flatMap, List.mem_cons, List.not_mem_nil, or_false, reduceCtorEq,
                Move.insert.injEq, false_or] at again
              obtain ⟨turn, listed, rfl⟩ := again
              exact distinct.1 listed
      | cons move before =>
          rw [List.cons_append, List.cons.injEq] at split
          cases before with
          | nil => simp at split
          | cons next before =>
              rw [List.cons_append, List.cons.injEq] at split
              exact ih distinct.2 before who between after split.2.2 other member

variable [DecidableEq ι]

def Board.step (board : Board ι) : Move ι → Board ι
  | .select who =>
      { board with
        chosen := Function.update board.chosen who (some (nextNumber board.placed)) }
  | .insert who =>
      match board.chosen who with
      | some number => { board with placed := board.placed ++ [number] }
      | none => board

theorem Board.step_insert {board : Board ι} {who : ι} {number : ℤ}
    (isChosen : board.chosen who = some number) :
    board.step (.insert who) = { board with placed := board.placed ++ [number] } := by
  simp only [Board.step, isChosen]

theorem Board.step_insert_none {board : Board ι} {who : ι} (nothing : board.chosen who = none) :
    board.step (.insert who) = board := by
  simp only [Board.step, nothing]

/-- Every participant selects and then inserts, each at most once. -/
def Orderly (moves : List (Move ι)) : Prop :=
  ∀ who, (moves.filter fun move => decide (move.who = who)) <+: [.select who, .insert who]

def AppendsGreatest (start : Board ι) (moves : List (Move ι)) : Prop :=
  ∀ board who rest, Happens Board.step start moves board (.insert who) rest →
    ∃ number, board.chosen who = some number ∧ ∀ other ∈ board.placed, other < number

section Steps
variable {board : Board ι} {moves : List (Move ι)} {who : ι}

theorem placed_grows (moves : List (Move ι)) :
    ∀ board : Board ι, board.placed <+: (moves.foldl Board.step board).placed := by
  induction moves with
  | nil => exact fun board => List.prefix_refl _
  | cons move moves ih =>
      intro board
      apply List.IsPrefix.trans _ (ih (board.step move))
      cases move with
      | select other => exact List.prefix_refl _
      | insert other =>
          unfold Board.step
          dsimp only
          split
          · exact List.prefix_append _ _
          · exact List.prefix_refl _

theorem placed_of_no_insert (none : ∀ other, Move.insert other ∉ moves) :
    (moves.foldl Board.step board).placed = board.placed := by
  induction moves generalizing board with
  | nil => rfl
  | cons move moves ih =>
      have noneLater : ∀ other, Move.insert other ∉ moves := by
        intro other member
        exact none other (List.mem_cons_of_mem _ member)
      cases move with
      | select other => exact ih noneLater
      | insert other => exact absurd List.mem_cons_self (none other)

theorem chosen_of_no_select (absent : Move.select who ∉ moves) :
    (moves.foldl Board.step board).chosen who = board.chosen who := by
  induction moves generalizing board with
  | nil => rfl
  | cons move moves ih =>
      rw [List.mem_cons, not_or] at absent
      rw [List.foldl_cons, ih absent.2]
      cases move with
      | select other =>
          have different : who ≠ other := by
            intro same
            exact absent.1 (congrArg Move.select same)
          exact Function.update_of_ne different _ _
      | insert other =>
          unfold Board.step
          dsimp only
          split
          · rfl
          · rfl

structure Nonneg (board : Board ι) : Prop where
  placed : ∀ number ∈ board.placed, 0 ≤ number
  chosen : ∀ who number, board.chosen who = some number → 0 ≤ number

theorem Nonneg.step (nonneg : Nonneg board) (move : Move ι) : Nonneg (board.step move) := by
  cases move with
  | select other =>
      refine ⟨nonneg.placed, ?_⟩
      intro reader number isChosen
      by_cases same : reader = other
      · subst same
        have isNext : nextNumber board.placed = number := by
          simpa [Board.step] using isChosen
        rw [← isNext]
        exact nextNumber_nonneg nonneg.placed
      · have before : board.chosen reader = some number := by
          simpa [Board.step, same] using isChosen
        exact nonneg.chosen reader number before
  | insert other =>
      cases isChosen : board.chosen other with
      | none =>
          rw [Board.step_insert_none isChosen]
          exact nonneg
      | some number =>
          rw [Board.step_insert isChosen]
          refine ⟨?_, nonneg.chosen⟩
          intro member inList
          rw [List.mem_append, List.mem_singleton] at inList
          cases inList with
          | inl old => exact nonneg.placed member old
          | inr new => exact new ▸ nonneg.chosen other number isChosen

end Steps

/-! ## Orderly runs -/

section Orderly
variable {before between after moves : List (Move ι)} {who : ι}

theorem Orderly.of_append (orderly : Orderly (before ++ after)) : Orderly before := by
  intro who
  have whole := orderly who
  rw [List.filter_append] at whole
  exact (List.prefix_append _ _).trans whole

theorem Orderly.own_steps (orderly : Orderly (before ++ .insert who :: after)) :
    before.filter (fun move => decide (move.who = who)) = [.select who] := by
  have whole := orderly who
  rw [List.filter_append, List.filter_cons_of_pos (by simp [Move.who])] at whole
  cases steps : before.filter (fun move => decide (move.who = who)) with
  | nil =>
      rw [steps] at whole
      simp at whole
  | cons first rest =>
      rw [steps] at whole
      cases rest with
      | nil =>
          have isFirst := (List.cons_prefix_cons.mp whole).1
          rw [isFirst]
      | cons second rest => simp at whole

theorem Orderly.not_inserted (orderly : Orderly (before ++ .insert who :: after)) :
    Move.insert who ∉ before := by
  intro member
  have inOwn : Move.insert who ∈ before.filter fun move => decide (move.who = who) :=
    List.mem_filter.mpr ⟨member, decide_eq_true rfl⟩
  rw [orderly.own_steps, List.mem_singleton] at inOwn
  cases inOwn

theorem Orderly.selects_once
    (orderly : Orderly (before ++ .select who :: between ++ .insert who :: after)) :
    Move.select who ∉ between := by
  intro again
  have own := orderly.own_steps
  rw [List.filter_append, List.filter_cons_of_pos (by simp [Move.who])] at own
  have inOwn : Move.select who ∈ between.filter fun move => decide (move.who = who) :=
    List.mem_filter.mpr ⟨again, decide_eq_true rfl⟩
  have nonempty := List.length_pos_of_mem inOwn
  have single := congrArg List.length own
  simp only [List.length_append, List.length_cons, List.length_nil] at single
  omega

theorem Orderly.insert_split (orderly : Orderly (before ++ .insert who :: after)) :
    ∃ earlier between, before = earlier ++ .select who :: between := by
  have member : Move.select who ∈ before.filter fun move => decide (move.who = who) := by
    rw [orderly.own_steps]
    exact List.mem_singleton_self _
  exact List.append_of_mem (List.mem_of_mem_filter member)

end Orderly

/-! ## Greatest appends -/

section Greatest
variable {start : Board ι} {moves : List (Move ι)}

/-- What is inserted is the number that followed the list at the select. -/
theorem chosen_at_insert {earlier between : List (Move ι)} {who : ι}
    (once : Move.select who ∉ between) :
    ((earlier ++ .select who :: between).foldl Board.step start).chosen who =
      some (nextNumber (earlier.foldl Board.step start).placed) := by
  rw [List.foldl_append, List.foldl_cons, chosen_of_no_select once]
  exact Function.update_self _ _ _

theorem greatest_of_undisturbed (orderly : Orderly moves) (undisturbed : Undisturbed moves) :
    AppendsGreatest start moves := by
  intro board who rest occurs
  obtain ⟨before, rfl, rfl⟩ := occurs
  obtain ⟨earlier, between, rfl⟩ := orderly.insert_split
  have quiet := undisturbed earlier who between rest
    (by rw [List.append_assoc, List.cons_append])
  have placed : ((earlier ++ .select who :: between).foldl Board.step start).placed =
      (earlier.foldl Board.step start).placed := by
    rw [List.foldl_append, List.foldl_cons, placed_of_no_insert quiet]
    rfl
  refine ⟨_, chosen_at_insert orderly.selects_once, ?_⟩
  intro other member
  rw [placed] at member
  exact lt_nextNumber member

/-- A greatest append that falls in between takes the number that was read, or one beyond
it, and leaves that number no greatest one when its turn comes. -/
theorem undisturbed_of_greatest (fresh : ∀ who, start.chosen who = none)
    (orderly : Orderly moves) (greatest : AppendsGreatest start moves) : Undisturbed moves := by
  intro before who between after split other inBetween
  obtain ⟨early, late, rfl⟩ := List.append_of_mem inBetween
  subst split
  have orderly' : Orderly (before ++ .select who :: (early ++ .insert other :: late) ++
      .insert who :: after) := by
    simpa only [List.append_assoc, List.cons_append] using orderly
  -- The append of the other participant, and what the list holds from then on.
  obtain ⟨number, isNumber, above⟩ := greatest _ other (late ++ .insert who :: after)
    ⟨before ++ .select who :: early, by simp, rfl⟩
  have listed : number ∈ ((before ++ .select who :: (early ++ .insert other :: late)).foldl
      Board.step start).placed := by
    rw [show before ++ Move.select who :: (early ++ .insert other :: late) =
      (before ++ .select who :: early) ++ .insert other :: late by simp]
    rw [List.foldl_append, List.foldl_cons, Board.step_insert isNumber]
    apply (placed_grows late _).subset
    exact List.mem_append_right _ (List.mem_singleton_self number)
  obtain ⟨own, isOwn, ownAbove⟩ := greatest _ who after
    ⟨before ++ .select who :: (early ++ .insert other :: late), by simp, rfl⟩
  rw [chosen_at_insert orderly'.selects_once, Option.some.injEq] at isOwn
  have grown : (before.foldl Board.step start).placed <+:
      ((before ++ .select who :: early).foldl Board.step start).placed := by
    rw [List.foldl_append]
    exact placed_grows _ _
  have notBelow : nextNumber (before.foldl Board.step start).placed ≤ number := by
    apply nextNumber_le
    · intro empty
      have noneAtStart : start.placed = [] := by
        have fromStart := placed_grows before start
        rw [empty] at fromStart
        exact List.prefix_nil.mp fromStart
      have initially : Nonneg start := by
        constructor
        · rw [noneAtStart]
          simp
        · intro reader read isRead
          rw [fresh reader] at isRead
          cases isRead
      have always : Nonneg ((before ++ .select who :: early).foldl Board.step start) :=
        (invariant_of_steps Nonneg initially fun _ move _ _ nonneg => nonneg.step move).2
      exact always.chosen other number isNumber
    · intro placed member
      exact above placed (grown.subset member)
  have below := ownAbove number listed
  omega

theorem placed_nodup_of_greatest (greatest : AppendsGreatest start moves)
    (distinct : start.placed.Nodup) :
    ∀ board ∈ moves.scanl Board.step start, board.placed.Nodup := by
  apply invariant_of_scanl (fun board : Board ι => board.placed.Nodup) distinct
  intro board move rest occurs nodup
  cases move with
  | select who => exact nodup
  | insert who =>
      obtain ⟨number, isNumber, above⟩ := greatest board who rest occurs
      rw [Board.step_insert isNumber]
      apply List.Nodup.append nodup (List.nodup_singleton number)
      intro member inList isNew
      rw [List.mem_singleton] at isNew
      subst isNew
      exact lt_irrefl _ (above member inList)

end Greatest

end SupernoteTaskService.Foundation
