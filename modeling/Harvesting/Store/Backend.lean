import Harvesting.Settings.Fault
import Harvesting.Settings.Store
import Harvesting.Store.Archive
import Harvesting.Store.Memory

/-!
# The configured store

* `Backend` — a store on disk or in memory, itself a `Store`;
* `Backend.of` — the store that settings ask for.
-/

namespace Harvesting

/-- A store of one of the kinds that settings can ask for. -/
inductive Backend where
  | archive (a : Archive)
  | memory (m : MemoryStore)

namespace Backend

/-- The store that settings ask for, on a disk with a working folder. -/
def of (s : StoreSettings) (disk : Disk.Node) (cwd : String) : Except SettingsFault Backend :=
  match s with
  | .folder path => .ok (.archive ⟨disk, cwd, path⟩)
  | .memory => .ok (.memory .empty)
  | .database _ => .error .noDatabase

/-- The disk after all that was done; memory leaves no trace on it. -/
def diskAfter (b : Backend) (before : Disk.Node) : Disk.Node :=
  match b with
  | .archive a => a.disk
  | .memory _ => before

/-- The answer of a part, with the whole after it. -/
def lift {σ α : Type} (whole : σ → Backend) (a : Store.Answer σ α) : Store.Answer Backend α :=
  (a.1, whole a.2)

instance : Store Backend where
  get
    | archive a, key, slot => lift archive (Store.get a key slot)
    | memory m, key, slot => lift memory (Store.get m key slot)
  put
    | archive a, key, slot, doc => lift archive (Store.put a key slot doc)
    | memory m, key, slot, doc => lift memory (Store.put m key slot doc)
  remove
    | archive a, key, slot => lift archive (Store.remove a key slot)
    | memory m, key, slot => lift memory (Store.remove m key slot)

end Backend

end Harvesting
