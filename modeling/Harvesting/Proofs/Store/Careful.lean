import Harvesting.Proofs.Store.Faithful
import Harvesting.Proofs.Store.Interrupted

/-!
# The store on disk as a faithful one

A document is kept on disk as its text, and what is held is what is read from that text. For documents that are
read back as they were given, the store on disk is a faithful one, whatever else is on the disk and whichever
step of writing fails.

* `Json.Returns` — the documents that are read back, all plain ones among them;
* `Archive.held` — what is read under a key and a slot; `Archive.held_put`, `Archive.held_put_error` — what it is
  after a put;
* `CarefulArchive` — the store on disk, to which no other documents are given, and its instance of
  `FaithfulStore`;
* `CarefulArchive.put_of_returns` — where it does what the store on disk does.
-/

namespace Harvesting

/-- The text of the document is read as that document. -/
def Json.Returns (doc : Json) : Prop := Json.read doc.pretty = .ok doc

theorem Json.Plain.returns {doc : Json} (h : Json.Plain 0 doc) : doc.Returns := Json.read_pretty h

namespace Archive

variable {a a' : Archive} {key key' : String} {slot slot' : Slot} {doc : Json} {f : Store.Fault}

/-- The document that is read, if there is one. -/
def held (a : Archive) (key : String) (slot : Slot) : Option Json := (Store.get a key slot).1.toOption.join

/-- Under a key whose folder cannot have its name, there is never a document. -/
theorem held_long (hlong : ¬ ∀ name ∈ a.folder key, Disk.Short name) : a.held key slot = none := by
  rw [held]
  by_cases hvalid : Key.isValid key = true
  · rw [get_eq hvalid]
    cases hthere : a.there key slot .current with
    | ok e =>
        cases e with
        | file b => exact absurd (Disk.short_of_look (folder_of_there hthere)) hlong
        | folder => rfl
    | error e => cases e <;> rfl
  · rw [get_invalid hvalid]
    rfl

/-- A change of one document leaves what is held elsewhere. -/
theorem Changes.held {now : Except Disk.Fault Disk.Entry} (h : Changes a a' key slot now)
    (hne : (key', slot') ≠ (key, slot)) : a'.held key' slot' = a.held key' slot' := by
  by_cases hshort : ∀ name ∈ a.folder key', Disk.Short name
  · rw [Archive.held, Archive.held, h.sameElsewhere key' slot' hne fun _ => .inl hshort]
  · rw [held_long hshort, held_long (by rwa [h.folder_eq])]

/-- A change that leaves the place of the document as it is leaves everything that is held. -/
theorem Changes.held_eq (h : Changes a a' key slot (a.there key slot .current)) (hvalid : Key.isValid key = true) :
    a'.held = a.held := by
  funext key' slot'
  by_cases heq : (key', slot') = (key, slot)
  · cases heq
    rw [Archive.held, Archive.held, h.get hvalid, get_eq hvalid]
  · exact h.held heq

/-- A put that succeeds has made a folder with the name of its key. -/
theorem short_of_put (hvalid : Key.isValid key = true) (h : Store.put a key slot doc = (.ok (), a')) :
    ∀ name ∈ a.folder key, Disk.Short name := by
  rw [put_eq hvalid] at h
  cases ran_of_runSteps h with
  | step hrun _ => exact Disk.short_of_makeFolders (congrArg Prod.fst hrun)

/-- What was put is held if it is read back, and everything else is held as before. -/
theorem held_put (hreturns : doc.Returns) (h : Store.put a key slot doc = (.ok (), a')) :
    a'.held key' slot' = if (key', slot') = (key, slot) then some doc else a.held key' slot' := by
  by_cases hvalid : Key.isValid key = true
  · have hrun := h
    rw [put_eq hvalid] at hrun
    have hchanges := (changes_runSteps hvalid (.inl (short_of_put hvalid h)) hrun).1
    split
    · next heq =>
      cases heq
      have hparse : parse (a.pathText key slot .current) (Disk.bytesOf doc.pretty) = .ok doc := by
        rw [parse, Disk.textOf?_bytesOf]
        simp only [show Json.read doc.pretty = .ok doc from hreturns]
        rfl
      rw [held, hchanges.get hvalid, answer, hparse]
      rfl
    · next hne => exact hchanges.held hne
  · rw [put_invalid hvalid] at h
    cases h

/-- Folders on the way to any document leave everything that is held. -/
theorem held_makeFolders (hvalid : Key.isValid key = true) :
    ({ a with disk := (Disk.makeFolders a.disk (a.folder key)).2 } : Archive).held = a.held := by
  funext key' slot'
  by_cases hshort : ∀ name ∈ a.folder key', Disk.Short name
  · by_cases hvalid' : Key.isValid key' = true
    · have hthere : ({ a with disk := (Disk.makeFolders a.disk (a.folder key)).2 } : Archive).there key' slot'
          .current = a.there key' slot' .current := by
        rw [← there_makeFolders hvalid (a.folder key).length hvalid' (.inl hshort), List.take_length]
      rw [held, held, get_eq hvalid', get_eq hvalid', hthere]
      rfl
    · rw [held, held, get_invalid hvalid', get_invalid hvalid']
  · have hfolder (disk : Disk.Node) : ({ a with disk := disk } : Archive).folder key' = a.folder key' := rfl
    rw [held_long hshort, held_long (by rwa [hfolder])]

/-- A put that is refused leaves everything that is held, at whatever step it stopped. -/
theorem held_put_error (h : Store.put a key slot doc = (.error f, a')) : a'.held = a.held := by
  by_cases hvalid : Key.isValid key = true
  · by_cases hshort : ∀ name ∈ a.folder key, Disk.Short name
    · exact ((interrupted_of_put hvalid h).changes hvalid (.inl hshort)).held_eq hvalid
    · -- a name that is too long is found out while the folders are made
      rw [put_eq hvalid, putSteps, runSteps, Step.run] at h
      split at h
      · next hrun => exact absurd (Disk.short_of_makeFolders (congrArg Prod.fst hrun)) hshort
      · next disk hrun =>
        cases h
        have hdisk : disk = (Disk.makeFolders a.disk (a.folder key)).2 := (congrArg Prod.snd hrun).symm
        rw [hdisk]
        exact held_makeFolders hvalid
  · rw [put_invalid hvalid] at h
    cases h
    rfl

end Archive

/-! ## Only documents that are read back -/

/-- A store on disk to which only documents are given that are read back. -/
structure CarefulArchive where
  archive : Archive

namespace CarefulArchive

/-- The answer of the store on disk. -/
def ofAnswer {α : Type} (answer : Store.Answer Archive α) : Store.Answer CarefulArchive α := (answer.1, ⟨answer.2⟩)

open Classical in
/-- A document that would not be read back is refused. -/
noncomputable def put (c : CarefulArchive) (key : String) (slot : Slot) (doc : Json) :
    Store.Answer CarefulArchive Unit :=
  if doc.Returns then ofAnswer (Store.put c.archive key slot doc)
  else (.error (.corrupt (Store.documentId key slot) "document is not read back"), c)

noncomputable instance : Store CarefulArchive where
  get c key slot := ofAnswer (Store.get c.archive key slot)
  put := put
  remove c key slot := ofAnswer (Store.remove c.archive key slot)

/-- A document that is read back is put as in the store on disk. -/
theorem put_of_returns (c : CarefulArchive) (key : String) (slot : Slot) {doc : Json} (h : doc.Returns) :
    Store.put c key slot doc = ofAnswer (Store.put c.archive key slot doc) := if_pos h

noncomputable instance : FaithfulStore CarefulArchive where
  held c := c.archive.held
  held_get c key slot := by
    show (Store.get c.archive key slot).2.held = c.archive.held
    by_cases hvalid : Key.isValid key = true
    · rw [Archive.get_eq hvalid]
    · rw [Archive.get_invalid hvalid]
  get_ok c key slot doc c' h := by
    have hdoc : (Store.get c.archive key slot).1 = .ok doc := congrArg Prod.fst h
    rw [Archive.held, hdoc]
    rfl
  put_ok c key slot doc c' h key' slot' := by
    by_cases hreturns : doc.Returns
    · rw [show Store.put c key slot doc = _ from put_of_returns c key slot hreturns] at h
      cases hput : Store.put c.archive key slot doc with
      | mk r a =>
      rw [hput] at h
      cases h
      exact Archive.held_put hreturns hput
    · rw [show Store.put c key slot doc = _ from if_neg hreturns] at h
      cases h
  put_error c key slot doc f c' h := by
    by_cases hreturns : doc.Returns
    · rw [show Store.put c key slot doc = _ from put_of_returns c key slot hreturns] at h
      cases hput : Store.put c.archive key slot doc with
      | mk r a =>
      rw [hput] at h
      cases h
      exact Archive.held_put_error hput
    · rw [show Store.put c key slot doc = _ from if_neg hreturns] at h
      cases h
      rfl

end CarefulArchive

end Harvesting
