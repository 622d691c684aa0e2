import SupernoteTaskService.Sync.PageSizes

/-!
# What a document link can stop

The `links` column holds whatever the device wrote.  What is no base64, no UTF-8, no JSON
or no object is read as no link, and so is the empty object; an object that is no
well-formed `DocumentLink` raises, and with it every read that fetches its row.
-/

set_option autoImplicit false

namespace SupernoteTaskService

open Foundation

section Links
variable {linkModel : LinkModel}

end Links

section Reads
variable {db : Database} {store : Store} {serverNow : ℤ}

theorem listTasks_ok_iff (query : TaskQuery) :
    (∃ page, listTasks db store serverNow query = .ok page) ↔
      ∀ row ∈ loadedTaskRows db store serverNow query, Readable db.linkModel row := by
  have items : Except.map Page.items (listTasks db store serverNow query) =
      (loadedTaskRows db store serverNow query).mapM (store.task db) :=
    assemblePage_items serverNow query.since.isSome
  have maps : ∀ row, (∃ task, store.task db row = .ok task) ↔ Readable db.linkModel row := by
    intro row
    exact rowToTask_ok_iff (store.join row)
  simp only [← maps, ← mapM_ok_iff_forall, ← items]
  exact exists_map_ok_iff.symm

end Reads

end SupernoteTaskService
