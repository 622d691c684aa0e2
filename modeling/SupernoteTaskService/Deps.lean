import SupernoteTaskService.Errors

/-!
# Shared dependencies of the endpoints

The settings that the modelled endpoints read, the freshness check of a delta
cursor, and the translation of a failed write.  Both routers translate with their
own texts and their own existence query.
-/

set_option autoImplicit false

namespace SupernoteTaskService

structure Settings where
  cursorMaxAgeMs : ℤ := 0
  deriving DecidableEq

def cursorExpired : ApiError :=
  ⟨410, "Cursor has expired; perform a full resync without 'since'.", "cursor_expired"⟩

def ensureCursorFresh (since : Option ℤ) (settings : Settings) (now : ℤ) : Except Raised Unit :=
  match since with
  | none => .ok ()
  | some since =>
      if settings.cursorMaxAgeMs ≤ 0 then .ok ()
      else if since < now - settings.cursorMaxAgeMs then .error (.http cursorExpired)
      else .ok ()

theorem ensureCursorFresh_ok_iff {since : ℤ} {settings : Settings} {now : ℤ}
    (enabled : 0 < settings.cursorMaxAgeMs) :
    ensureCursorFresh (some since) settings now = .ok () ↔
      now - settings.cursorMaxAgeMs ≤ since := by
  unfold ensureCursorFresh
  dsimp only
  rw [if_neg (not_le.mpr enabled)]
  by_cases stale : since < now - settings.cursorMaxAgeMs
  · rw [if_pos stale]
    exact iff_of_false (fun impossible => by cases impossible) (not_le.mpr stale)
  · rw [if_neg stale]
    exact iff_of_true rfl (not_lt.mp stale)

abbrev Reply (α : Type) (σ : Type) := Except Raised α × σ

/-- A write that failed is a conflict when the row is still there and a version was
sent, and a missing row otherwise. -/
def resolveWriteWith (conflict missing : String) (stillThere ok conditional : Bool) :
    Except Raised Unit :=
  if ok then .ok ()
  else if conditional && stillThere then .error (.http ⟨409, conflict, "conflict"⟩)
  else .error (.http (httpException 404 missing))

end SupernoteTaskService
