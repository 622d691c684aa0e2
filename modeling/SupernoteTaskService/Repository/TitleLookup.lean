import SupernoteTaskService.EmojiTokens
import SupernoteTaskService.Repository.Lists

/-!
# Looking a list up by its title

The lookup encodes the title and compares it with the stored ones; the API shows the stored
ones decoded.  The two agree on a title when the encoder and the decoder are inverse on it
and on every stored title that is shown as it.  They agree on every title exactly when no
stored title spells a token, and so in particular has no emoji in it.
-/

set_option autoImplicit false

namespace SupernoteTaskService

open Foundation

section Titles

theorem encodeEmoji_self {text : Text} (basic : BasicPlane text) : encodeEmoji text = text := by
  have whole := encodeEmoji_of_basicPlane basic []
  rwa [List.append_nil, show encodeEmoji [] = [] from rfl, List.append_nil] at whole

theorem SpellsToken.encoded {text : Text} (spells : SpellsToken text) :
    SpellsToken (encodeEmoji text) := by
  obtain ⟨before, digits, after, rfl, hexRun, valid⟩ := spells
  refine ⟨encodeEmoji before, digits, encodeEmoji after, ?_, hexRun, valid⟩
  rw [List.append_assoc, encodeEmoji_append,
    encodeEmoji_of_basicPlane (tokenText_basicPlane hexRun), List.append_assoc]

theorem decodeEmoji_self_iff {text : Text} (basic : BasicPlane text) :
    decodeEmoji (some text) = text ↔ ¬ SpellsToken text := by
  have back := round_trip_iff text
  rwa [encodeEmoji_self basic] at back

end Titles

section Lookup
variable (db : Database) (store : Store) (title : Text)

/-- An active list is stored under the encoded title. -/
def StoredAs : Prop :=
  ∃ row ∈ store.lists.rows, row.isActive db.userId = true ∧ row.title = some (encodeEmoji title)

def ShownAs : Prop :=
  ∃ row ∈ store.lists.rows, row.isActive db.userId = true ∧ (rowToList row).title = title

/-- The lookup finds a list exactly when one is shown with the title, and what it finds is
shown with it. -/
def LookupAgrees : Prop :=
  ((∃ list, getListByTitle db store title = some list) ↔ ShownAs db store title) ∧
    ∀ list, getListByTitle db store title = some list → list.title = title

variable {db store title}

theorem getListByTitle_isSome_iff :
    (∃ list, getListByTitle db store title = some list) ↔ StoredAs db store title := by
  rw [← not_iff_not, ← Option.eq_none_iff_forall_ne_some.trans not_exists.symm,
    getListByTitle_eq_none_iff]
  constructor
  · rintro unused ⟨row, member, active, stored⟩
    exact unused row member active stored
  · intro nobody row member active stored
    exact nobody ⟨row, member, active, stored⟩

/-- What the lookup finds is shown as the title decoded. -/
theorem title_of_found {list : TaskList} (found : getListByTitle db store title = some list) :
    list.title = decodeEmoji (some (encodeEmoji title)) := by
  obtain ⟨row, -, -, stored, rfl⟩ := getListByTitle_eq_some found
  rw [rowToList, stored]

theorem StoredAs.shownAs (stored : StoredAs db store title) (plain : ¬ SpellsToken title) :
    ShownAs db store title := by
  obtain ⟨row, member, active, isTitle⟩ := stored
  refine ⟨row, member, active, ?_⟩
  rw [rowToList, isTitle]
  exact (round_trip_iff title).mpr plain

/-- On one title the lookup agrees with what is shown in two cases: the title spells no token
and an active list is stored under it, or no active list is stored under it nor shown as it. -/
theorem lookupAgrees_iff :
    LookupAgrees db store title ↔
      (¬ SpellsToken title ∧ StoredAs db store title) ∨
        (¬ StoredAs db store title ∧ ¬ ShownAs db store title) := by
  unfold LookupAgrees
  rw [getListByTitle_isSome_iff]
  constructor
  · rintro ⟨agrees, exact_⟩
    by_cases stored : StoredAs db store title
    · obtain ⟨list, found⟩ := getListByTitle_isSome_iff.mpr stored
      have shown := exact_ list found
      rw [title_of_found found] at shown
      exact Or.inl ⟨(round_trip_iff title).mp shown, stored⟩
    · exact Or.inr ⟨stored, fun shown => stored (agrees.mpr shown)⟩
  · rintro (⟨plain, stored⟩ | ⟨notStored, notShown⟩)
    · refine ⟨iff_of_true stored (stored.shownAs plain), fun list found => ?_⟩
      rw [title_of_found found]
      exact (round_trip_iff title).mpr plain
    · refine ⟨iff_of_false notStored notShown, fun list found => ?_⟩
      exact absurd (getListByTitle_isSome_iff.mp ⟨list, found⟩) notStored

/-- Over tables of stored titles within the basic plane, the lookup agrees on every title
exactly when no active list's stored title spells a token. -/
theorem lookupAgrees_forall_iff
    (basic : ∀ row ∈ store.lists.rows, row.isActive db.userId = true →
      ∃ stored, row.title = some stored ∧ BasicPlane stored) :
    (∀ title, LookupAgrees db store title) ↔
      ∀ row ∈ store.lists.rows, row.isActive db.userId = true →
        ∀ stored, row.title = some stored → ¬ SpellsToken stored := by
  constructor
  · intro agrees row member active stored isStored
    obtain ⟨stored', isStored', inPlane⟩ := basic row member active
    rw [isStored, Option.some.injEq] at isStored'
    subst isStored'
    have under : StoredAs db store stored :=
      ⟨row, member, active, by rw [encodeEmoji_self inPlane, isStored]⟩
    rcases lookupAgrees_iff.mp (agrees stored) with ⟨plain, -⟩ | ⟨nowhere, -⟩
    · exact plain
    · exact absurd under nowhere
  · intro plain title
    rw [lookupAgrees_iff]
    by_cases stored : StoredAs db store title
    · refine Or.inl ⟨fun spells => ?_, stored⟩
      obtain ⟨row, member, active, isStored⟩ := stored
      exact plain row member active _ isStored spells.encoded
    · refine Or.inr ⟨stored, ?_⟩
      rintro ⟨row, member, active, shown⟩
      obtain ⟨text, isStored, inPlane⟩ := basic row member active
      have same : text = title := by
        rw [rowToList, isStored] at shown
        exact ((decodeEmoji_self_iff inPlane).mpr (plain row member active text isStored)).symm.trans
          shown
      subst same
      exact stored ⟨row, member, active, by rw [encodeEmoji_self inPlane, isStored]⟩

end Lookup

/-- The lookup by title against the titles shown: on one title, and on every title of a table
whose stored titles are within the basic plane. -/
theorem title_lookup_law (db : Database) (store : Store) :
    (∀ title, LookupAgrees db store title ↔
      (¬ SpellsToken title ∧ StoredAs db store title) ∨
        (¬ StoredAs db store title ∧ ¬ ShownAs db store title)) ∧
    ((∀ row ∈ store.lists.rows, row.isActive db.userId = true →
        ∃ stored, row.title = some stored ∧ BasicPlane stored) →
      ((∀ title, LookupAgrees db store title) ↔
        ∀ row ∈ store.lists.rows, row.isActive db.userId = true →
          ∀ stored, row.title = some stored → ¬ SpellsToken stored)) :=
  ⟨fun _ => lookupAgrees_iff, lookupAgrees_forall_iff⟩

def plainTitle : Store :=
  ⟨.empty, .single (newListRow singleUser ['g'] 1000 "Findable".toList)⟩

theorem plainTitle_found : ∀ title, LookupAgrees singleUser plainTitle title := by
  have inPlane := encodeEmoji_basicPlane "Findable".toList
  have plain : ¬ SpellsToken (encodeEmoji "Findable".toList) :=
    (decodeEmoji_self_iff inPlane).mp (by decide +kernel)
  refine ((title_lookup_law singleUser plainTitle).2 ?_).mpr ?_
  · intro row member _
    rw [List.mem_singleton.mp member]
    exact ⟨_, rfl, inPlane⟩
  · intro row member _ stored isStored
    rw [List.mem_singleton.mp member] at isStored
    rwa [← Option.some.inj isStored]

def lowerCaseToken : Store :=
  ⟨.empty, .single { newListRow singleUser ['g'] 1000 [] with title := some "[U+1f600]".toList }⟩

/-- It is shown with the emoji, and the lookup of the emoji does not find it. -/
theorem lower_case_token_not_found :
    ¬ ∀ (store : Store) (title : Text), LookupAgrees singleUser store title := by
  intro always
  have agrees := (always lowerCaseToken [Char.ofNat 0x1F600]).1
  have shown : ShownAs singleUser lowerCaseToken [Char.ofNat 0x1F600] := by
    refine ⟨_, List.mem_singleton_self _, rfl, ?_⟩
    decide +kernel
  obtain ⟨list, found⟩ := agrees.mpr shown
  have missed : getListByTitle singleUser lowerCaseToken [Char.ofNat 0x1F600] = none := by
    decide +kernel
  rw [missed] at found
  cases found

end SupernoteTaskService
