import Harvesting.Proofs.Store.Archive
import Mathlib.Data.String.Basic
import Mathlib.Logic.Relation

/-!
# Writing a document that is interrupted

A crash or a fault of the disk may stop the writing of a document between two of its steps or in the midst
of one. Whatever it leaves, a reader finds the old document or the new one, and the next writing is not
hindered by it.

* `Archive.Step.Leaves` — what a step may leave when it is stopped;
* `Archive.Interrupted` — the writing was stopped before the new document was moved into place;
* `Archive.SameElsewhere`, `Archive.readBack` — what is read after a change of one document, of others and of it;
* `Archive.Next` — one operation on the store, which may be interrupted; `Archive.Next.ready` — after it, what
  could be stored can be stored;
* `Archive.put_atomic` — a document is put as a whole or not at all.
-/

namespace Harvesting.Archive

variable {a a' : Archive} {key key' : String} {slot slot' : Slot} {b : Disk.Bytes} {disk : Disk.Node}
  {doc : Json} {f : Store.Fault}

/-! ## Stops -/

/--
What a step may leave on the disk when it is stopped. Folders are made one after another and files are
written from their beginning; a file gets its new path at once or not at all.
-/
inductive Step.Leaves (a : Archive) (key : String) (slot : Slot) (b : Disk.Bytes) : Step → Disk.Node → Prop
  | untouched (step : Step) : Leaves a key slot b step a.disk
  | folders (i : Nat) : Leaves a key slot b .makeFolder (Disk.makeFolders a.disk ((a.folder key).take i)).2
  | temporary (i : Nat) {disk : Disk.Node} : Disk.write a.disk (a.path key slot .temporary) (b.take i) = .ok disk →
    Leaves a key slot b .writeTemporary disk
  | backup (i : Nat) {c : Disk.Bytes} {disk : Disk.Node} : a.there key slot .current = .ok (.file c) →
    Disk.write a.disk (a.path key slot .backup) (c.take i) = .ok disk → Leaves a key slot b .backUp disk

/-- The steps came about up to one that was stopped, so the new document was not moved into its place. -/
def Interrupted (a a' : Archive) (key : String) (slot : Slot) (b : Disk.Bytes) : Prop :=
  ∃ m step rest disk, Ran key slot b a putSteps m (step :: rest) ∧ step.Leaves m key slot b disk ∧
    a' = { m with disk := disk }

theorem Step.Leaves.changes {step : Step} (h : step.Leaves a key slot b disk) (hvalid : Key.isValid key = true)
    (hreach : a.Reachable key) : Changes a { a with disk := disk } key slot (a.there key slot .current) := by
  cases h with
  | untouched => exact Changes.refl
  | folders i => exact changes_makeFolders hvalid hreach i
  | temporary i hwrite => exact changes_write hvalid (by decide) hwrite
  | backup i hfile hwrite => exact changes_write hvalid (by decide) hwrite

/-- The last step is still to be done as long as any is. -/
theorem install_mem {step : Step} {rest : List Step} (h : step :: rest <:+ putSteps) :
    Step.install ∈ step :: rest := by
  have hlast : (step :: rest).getLast (List.cons_ne_nil step rest) = .install :=
    h.getLast (List.cons_ne_nil step rest)
  rw [← hlast]
  exact List.getLast_mem _

/-- An interruption changes nothing that is read. -/
theorem Interrupted.changes (h : Interrupted a a' key slot b) (hvalid : Key.isValid key = true)
    (hreach : a.Reachable key) : Changes a a' key slot (a.there key slot .current) := by
  obtain ⟨m, step, rest, disk, hran, hleaves, rfl⟩ := h
  have hbefore := hran.changes nodup_putSteps (install_mem hran.suffix) hvalid hreach
  have hlast := hleaves.changes hvalid (hbefore.reachable hreach)
  rw [hbefore.current] at hlast
  exact hbefore.trans hlast

/-! ## Faults -/

theorem changed_error {n : Disk.Node} {r : Except Disk.Fault Disk.Node} {e : Disk.Fault}
    (h : changed n r = (.error e, disk)) : disk = n := by
  cases r with
  | error e => cases h; rfl
  | ok m => cases h

theorem leaves_of_run_error {step : Step} {e : Disk.Fault} (h : step.run a key slot b = (.error e, disk)) :
    step.Leaves a key slot b disk := by
  cases step with
  | makeFolder =>
      have hfolders : Step.Leaves a key slot b .makeFolder _ := .folders (a.folder key).length
      rw [List.take_length] at hfolders
      rw [Step.run] at h
      rwa [h] at hfolders
  | writeTemporary | backUp | install =>
      rw [Step.run] at h
      rw [changed_error h]
      exact .untouched _

theorem stopped_of_runSteps {steps : List Step} (h : runSteps key slot b a steps = (.error f, a')) :
    ∃ m step rest disk, Ran key slot b a steps m (step :: rest) ∧ step.Leaves m key slot b disk ∧
      a' = { m with disk := disk } := by
  induction steps generalizing a with
  | nil => cases h
  | cons step steps ih =>
      rw [runSteps] at h
      split at h
      · next disk hrun =>
        obtain ⟨m, step', rest, disk', hran, hleaves, heq⟩ := ih h
        exact ⟨m, step', rest, disk', .step hrun hran, hleaves, heq⟩
      · next e disk hrun =>
        cases h
        exact ⟨a, step, steps, disk, .start a _, leaves_of_run_error hrun, rfl⟩

/-- A document that is refused is one whose writing was interrupted. -/
theorem interrupted_of_put (hvalid : Key.isValid key = true) (h : Store.put a key slot doc = (.error f, a')) :
    Interrupted a a' key slot (Disk.bytesOf doc.pretty) := by
  rw [put_eq hvalid] at h
  exact stopped_of_runSteps h

/-! ## What is read -/

/--
From `a` to `a'`, no other document is read in another way than before. Of a source that was never found,
because there is no root and the name is too long, nothing is said.
-/
def SameElsewhere (a a' : Archive) (key : String) (slot : Slot) : Prop :=
  ∀ key' slot', (key', slot') ≠ (key, slot) → (Key.isValid key' = true → a.Reachable key') →
    (Store.get a' key' slot').1 = (Store.get a key' slot').1

section

variable {now : Except Disk.Fault Disk.Entry}

theorem Changes.get (h : Changes a a' key slot now) (hvalid : Key.isValid key = true) :
    (Store.get a' key slot).1 = answer (a.pathText key slot .current) now := by
  rw [get_eq hvalid, h.current, h.pathText_eq]

theorem Changes.sameElsewhere (h : Changes a a' key slot now) : SameElsewhere a a' key slot := by
  intro key' slot' hne hreach
  by_cases hvalid : Key.isValid key' = true
  · rw [get_eq hvalid, get_eq hvalid, h.elsewhere key' slot' .current hvalid hne (hreach hvalid), h.pathText_eq]
  · rw [get_invalid hvalid, get_invalid hvalid]

end

/-! ## Later operations -/

/-- The store after an operation, which may be interrupted where it is the writing of a document. -/
inductive Next (a : Archive) : Archive → Prop
  | get (key : String) (slot : Slot) : Next a (Store.get a key slot).2
  | put (key : String) (slot : Slot) (doc : Json) : a.Reachable key → Next a (Store.put a key slot doc).2
  | interrupted {key : String} {slot : Slot} {doc : Json} {a' : Archive} : Key.isValid key = true →
    a.Reachable key → Interrupted a a' key slot (Disk.bytesOf doc.pretty) → Next a a'
  | remove (key : String) (slot : Slot) : Next a (Store.remove a key slot).2

/-- An operation changes one document at most. -/
theorem Next.changes (h : Next a a') : a' = a ∨ ∃ key slot now, Changes a a' key slot now := by
  cases h with
  | get key slot =>
      by_cases hvalid : Key.isValid key = true
      · rw [get_eq hvalid]
        exact .inl rfl
      · rw [get_invalid hvalid]
        exact .inl rfl
  | put key slot doc hreach =>
      by_cases hvalid : Key.isValid key = true
      · cases hput : Store.put a key slot doc with
        | mk r a' =>
        right
        cases r with
        | error f => exact ⟨key, slot, _, (interrupted_of_put hvalid hput).changes hvalid hreach⟩
        | ok u =>
            rw [put_eq hvalid] at hput
            exact ⟨key, slot, _, (changes_runSteps hvalid hreach hput).1⟩
      · rw [put_invalid hvalid]
        exact .inl rfl
  | @interrupted key slot doc _ hvalid hreach hinterrupted =>
      exact .inr ⟨key, slot, _, hinterrupted.changes hvalid hreach⟩
  | remove key slot =>
      by_cases hvalid : Key.isValid key = true
      · rw [remove_eq hvalid]
        cases hremove : Disk.remove a.disk (a.path key slot .current) with
        | ok disk => exact .inr ⟨key, slot, _, changes_remove hvalid hremove⟩
        | error e => cases e <;> exact .inl rfl
      · rw [remove_invalid hvalid]
        exact .inl rfl

/-- A document that can be stored can be stored after every operation. -/
theorem Next.ready (h : Next a a') (hready : a.Ready key slot) : a'.Ready key slot := by
  rcases h.changes with rfl | ⟨key', slot', now, hchanges⟩
  · exact hready
  · exact hchanges.ready hready

theorem ready_of_later (h : Relation.ReflTransGen Next a a') (hready : a.Ready key slot) : a'.Ready key slot := by
  induction h with
  | refl => exact hready
  | tail _ hnext ih => exact hnext.ready ih

/-! ## Documents that are put as a whole -/

/-- All steps came about, whether or not there was time to answer. -/
def Installed (a a' : Archive) (key : String) (slot : Slot) (b : Disk.Bytes) : Prop :=
  Ran key slot b a putSteps a' []

/-- What the text of a document is read as, once it is in place. -/
def readBack (a : Archive) (key : String) (slot : Slot) (doc : Json) : Except Store.Fault (Option Json) :=
  (parse (a.pathText key slot .current) (Disk.bytesOf doc.pretty)).map some

theorem readBack_plain (h : Json.Plain 0 doc) : a.readBack key slot doc = .ok (some doc) := by
  rw [readBack, parse_pretty _ h]
  rfl

theorem Next.readBack_eq (h : Next a a') (key : String) (slot : Slot) (doc : Json) :
    a'.readBack key slot doc = a.readBack key slot doc := by
  rcases h.changes with rfl | ⟨key', slot', now, hchanges⟩
  · rfl
  · rw [readBack, readBack, hchanges.pathText_eq]

/-- A document that can be stored is put and read back, whatever was done before. -/
theorem put_later (hlater : Relation.ReflTransGen Next a a') (hready : a.Ready key slot) (doc : Json) :
    ∃ m, Store.put a' key slot doc = (.ok (), m) ∧ (Store.get m key slot).1 = a.readBack key slot doc := by
  obtain ⟨m, hput, hchanges⟩ := put_ready (ready_of_later hlater hready) doc
  have hread : a'.readBack key slot doc = a.readBack key slot doc := by
    clear hput hchanges
    induction hlater with
    | refl => rfl
    | tail _ hnext ih => exact (hnext.readBack_eq key slot doc).trans ih
  exact ⟨m, hput, (hchanges.get hready.valid).trans hread⟩

/-- Before the new document is in place, everything is read as before. -/
theorem Interrupted.get (h : Interrupted a a' key slot b) (hvalid : Key.isValid key = true)
    (hreach : a.Reachable key) :
    (Store.get a' key slot).1 = (Store.get a key slot).1 ∧ SameElsewhere a a' key slot := by
  have hchanges := h.changes hvalid hreach
  refine ⟨?_, hchanges.sameElsewhere⟩
  rw [hchanges.get hvalid, get_eq hvalid]

/-- Once it is in place, it is read, and the document that was there is kept beside it. -/
theorem Installed.get (h : Installed a a' key slot (Disk.bytesOf doc.pretty)) (hvalid : Key.isValid key = true)
    (hreach : a.Reachable key) :
    (Store.get a' key slot).1 = a.readBack key slot doc ∧ SameElsewhere a a' key slot ∧
      ∀ c, a.there key slot .current = .ok (.file c) → a'.there key slot .backup = .ok (.file c) := by
  obtain ⟨hchanges, hbackup⟩ := changes_runSteps hvalid hreach (Ran.runSteps h)
  exact ⟨hchanges.get hvalid, hchanges.sameElsewhere, hbackup⟩

/-- Wherever the writing was stopped, that was one operation. -/
theorem next_of_stopped (hvalid : Key.isValid key = true) (hreach : a.Reachable key)
    (h : Interrupted a a' key slot (Disk.bytesOf doc.pretty) ∨ Installed a a' key slot (Disk.bytesOf doc.pretty)) :
    Next a a' := by
  rcases h with h | h
  · exact .interrupted hvalid hreach h
  · have hput : Store.put a key slot doc = (.ok (), a') := (put_eq hvalid doc).trans (Ran.runSteps h)
    have hnext := Next.put (a := a) key slot doc hreach
    rwa [hput] at hnext

/--
A document is put as a whole or not at all. As long as it is not in place, the old one is read; once it
is, the new one is read and the old one is kept beside it; all other documents are read as before. A put
that is refused was interrupted, and one that succeeds has come to its end. Wherever it was stopped, every
later put comes about and is read back.
-/
theorem put_atomic (hvalid : Key.isValid key = true) (hreach : a.Reachable key) (doc : Json) :
    (∀ a', Interrupted a a' key slot (Disk.bytesOf doc.pretty) →
      (Store.get a' key slot).1 = (Store.get a key slot).1 ∧ SameElsewhere a a' key slot) ∧
    (∀ a', Installed a a' key slot (Disk.bytesOf doc.pretty) →
      (Store.get a' key slot).1 = a.readBack key slot doc ∧
      (Json.Plain 0 doc → (Store.get a' key slot).1 = .ok (some doc)) ∧
      SameElsewhere a a' key slot ∧
      ∀ c, a.there key slot .current = .ok (.file c) → a'.there key slot .backup = .ok (.file c)) ∧
    (∀ f a', Store.put a key slot doc = (.error f, a') →
      Interrupted a a' key slot (Disk.bytesOf doc.pretty)) ∧
    (∀ a', Store.put a key slot doc = (.ok (), a') → Installed a a' key slot (Disk.bytesOf doc.pretty)) ∧
    (a.Ready key slot → ∀ a', Interrupted a a' key slot (Disk.bytesOf doc.pretty) ∨
        Installed a a' key slot (Disk.bytesOf doc.pretty) →
      ∀ m, Relation.ReflTransGen Next a' m → ∀ doc', ∃ m',
        Store.put m key slot doc' = (.ok (), m') ∧ (Store.get m' key slot).1 = a.readBack key slot doc' ∧
        (Json.Plain 0 doc' → (Store.get m' key slot).1 = .ok (some doc'))) := by
  refine ⟨?_, ?_, ?_, ?_, ?_⟩
  · intro a' h
    exact h.get hvalid hreach
  · intro a' h
    obtain ⟨hget, hsame, hbackup⟩ := h.get hvalid hreach
    refine ⟨hget, ?_, hsame, hbackup⟩
    intro hplain
    rw [hget, readBack_plain hplain]
  · intro f a' h
    exact interrupted_of_put hvalid h
  · intro a' h
    rw [put_eq hvalid] at h
    exact ran_of_runSteps h
  · intro hready a' hstopped m hlater doc'
    obtain ⟨m', hput, hget⟩ := put_later (.head (next_of_stopped hvalid hreach hstopped) hlater) hready doc'
    refine ⟨m', hput, hget, ?_⟩
    intro hplain
    rw [hget, readBack_plain hplain]

/-- After a torn file beside the place of a document, the document is still missing, and it can be put. -/
theorem put_atomic_torn : ∃ a', Interrupted blank a' "src" .tally (Disk.bytesOf (Json.bool true).pretty) ∧
    a'.there "src" .tally .temporary = .ok (.file [116, 114]) ∧ (Store.get a' "src" .tally).1 = .ok none ∧
    ∃ m, Store.put a' "src" .tally (.bool true) = (.ok (), m) ∧
      (Store.get m "src" .tally).1 = .ok (some (.bool true)) := by
  have hvalid : Key.isValid "src" = true := by decide
  have hready : blank.Ready "src" .tally := blank_empty.ready hvalid (by decide)
  obtain ⟨hinterrupted, -, -, -, hlater⟩ := put_atomic hvalid hready.reachable (.bool true)
  obtain ⟨d₁, hfolders, hfolder⟩ := makeFolder_ready (b := Disk.bytesOf (Json.bool true).pretty) hready
  have hready₁ := (changes_makeFolder hvalid hready.reachable hfolders).ready hready
  obtain ⟨d₂, hwrite⟩ := write_ready hready₁ hfolder .temporary ((Disk.bytesOf (Json.bool true).pretty).take 2)
  have htorn : Interrupted blank { blank with disk := d₂ } "src" .tally (Disk.bytesOf (Json.bool true).pretty) :=
    ⟨_, .writeTemporary, _, d₂, .step hfolders (.start _ _), .temporary 2 hwrite, rfl⟩
  have hbytes : (Disk.bytesOf (Json.bool true).pretty).take 2 = [116, 114] := by decide +kernel
  refine ⟨_, htorn, ?_, ?_, ?_⟩
  · rw [← hbytes]
    exact (there_write hvalid hwrite).1
  · rw [(hinterrupted _ htorn).1, get_eq hvalid, blank_empty.there hvalid (by decide)]
    rfl
  · obtain ⟨m, hput, -, hread⟩ := hlater hready _ (.inl htorn) _ .refl (.bool true)
    exact ⟨m, hput, hread trivial⟩

/-! ## Documents that are not read back -/

theorem read_of_readBack (h : a.readBack key slot doc = .ok (some doc)) : Json.read doc.pretty = .ok doc := by
  rw [readBack, parse, Disk.textOf?_bytesOf] at h
  obtain ⟨read, hread, heq⟩ := map_eq_ok.1 h
  cases heq
  exact mapError_eq_ok.1 hread

/-- A fraction whose text is read as its neighbour. -/
def fraction : Json := .object [("x", .real (.finite false 7205759403792807 (-56)))]

/-- A key whose folder no disk can name. -/
def longKey : String := String.ofList ('a' :: List.replicate Disk.maxName 'a')

theorem isValid_longKey : Key.isValid longKey = true := by
  have hall : ('a' :: List.replicate Disk.maxName 'a').all Key.isKeyChar = true := by
    rw [← List.replicate_succ]
    simp only [List.all_eq_true, List.mem_replicate]
    rintro c ⟨-, rfl⟩
    decide
  rw [Key.isValid, longKey, String.toList_ofList, hall]
  simp

theorem not_short_longKey : ¬ Disk.Short longKey := by
  have hlen (n : Nat) : String.utf8Len (List.replicate n 'a') = n := by
    induction n with
    | zero => rfl
    | succ n ih =>
        rw [List.replicate_succ, String.utf8Len_cons, ih]
        rfl
  rw [Disk.Short, longKey, String.utf8ByteSize_ofList, ← List.replicate_succ, hlen]
  omega

/-- Nothing is put under a key that is too long for a folder. -/
theorem put_long (hvalid : Key.isValid key = true) (hbase : Disk.look a.disk a.base = .ok .folder)
    (hlong : ¬ Disk.Short key) (doc : Json) :
    (Store.put a key slot doc).1 = .error (.io Disk.Fault.nameTooLong.message) := by
  have hfault := Disk.makeFolders_long hbase hlong
  rw [← folder_eq hvalid] at hfault
  rw [put_eq hvalid, putSteps, runSteps, Step.run]
  split
  · next hrun =>
    rw [hrun] at hfault
    cases hfault
  · next hrun =>
    rw [hrun] at hfault
    cases hfault
    rfl

/-- The disk of `blank` before there is a root folder. -/
def rootless : Archive := { blank with disk := .folder [("home", .folder [])] }

/-- Where there is no root yet, nothing is found under a key that is too long. -/
theorem get_rootless (hvalid : Key.isValid key = true) : (Store.get rootless key slot).1 = .ok none := by
  have hbase : rootless.base = ["home", "store"] := base_blank
  have hnone : Disk.look rootless.disk ["home", "store"] = .error .notFound := rfl
  rw [get_eq hvalid, Archive.there, path_eq hvalid, hbase, Disk.look_of_notFound hnone]
  rfl

/-- The root is made before the key turns out to be too long. -/
theorem put_rootless (hvalid : Key.isValid key = true) (hlong : ¬ Disk.Short key) (doc : Json) :
    Store.put rootless key slot doc = (.error (.io Disk.Fault.nameTooLong.message), blank) := by
  have hbase : rootless.base = ["home", "store"] := base_blank
  have hlast : Disk.makeFolders (.folder []) [key] = (.error .nameTooLong, .folder []) := by
    rw [Disk.makeFolders, if_pos (Nat.lt_of_not_le hlong)]
  have hfolders : Disk.makeFolders rootless.disk (rootless.base ++ [key]) = (.error .nameTooLong, blank.disk) := by
    let above (r : Except Disk.Fault Unit × Disk.Node) : Except Disk.Fault Unit × Disk.Node :=
      (r.1, .folder [("home", .folder [("store", r.2)])])
    rw [hbase]
    exact congrArg above hlast
  rw [put_eq hvalid, putSteps, runSteps, Step.run, folder_eq hvalid, hfolders]
  rfl

/-- In a root that is there, a key that is too long cannot even be looked up. -/
theorem get_blank_long (hvalid : Key.isValid key = true) (hlong : ¬ Disk.Short key) :
    (Store.get blank key slot).1 = .error (.io Disk.Fault.nameTooLong.message) := by
  have hlook := Disk.look_long_in blank_empty.base hlong [fileName slot .current]
  rw [get_eq hvalid, Archive.there, path_eq hvalid, hlook]
  rfl

/--
A document that is put need not be read back as it was given: not a fraction, and not one that is nested
too deep for a reader. A key may be too long for a folder, and where there is no root folder yet, the put
that fails makes one, so that the key is no longer one of which nothing is stored.
-/
theorem put_not_read_back :
    (∀ doc ∈ [fraction, Json.nested 128], ∃ a', Installed blank a' "src" .tally (Disk.bytesOf doc.pretty) ∧
      (Store.get a' "src" .tally).1 ≠ .ok (some doc)) ∧
    Key.isValid longKey = true ∧ (Store.put blank longKey .tally .null).1 ≠ .ok () ∧
    ∃ f a', Store.put rootless longKey .tally .null = (.error f, a') ∧
      (Store.get a' longKey .tally).1 ≠ (Store.get rootless longKey .tally).1 := by
  have hvalid : Key.isValid "src" = true := by decide
  have hready : blank.Ready "src" .tally := blank_empty.ready hvalid (by decide)
  refine ⟨?_, isValid_longKey, ?_, _, _, put_rootless isValid_longKey not_short_longKey .null, ?_⟩
  · intro doc hdoc
    obtain ⟨a', hrun⟩ := runSteps_ready hready (Disk.bytesOf doc.pretty)
    refine ⟨a', ran_of_runSteps hrun, ?_⟩
    rw [(changes_runSteps hvalid hready.reachable hrun).1.get hvalid]
    intro hback
    have hread : Json.read doc.pretty = .ok doc := read_of_readBack (a := blank) hback
    rcases List.mem_cons.1 hdoc with rfl | hdoc
    · have hother : (Json.read fraction.pretty).toOption.map Json.pretty ≠ some fraction.pretty := by
        decide +kernel
      rw [hread] at hother
      exact hother rfl
    · cases List.mem_singleton.1 hdoc
      obtain ⟨f, hf⟩ := Json.read_nested (show Json.maxDepth < 128 by decide)
      cases hf.symm.trans hread
  · rw [put_long isValid_longKey blank_empty.base not_short_longKey]
    nofun
  · rw [get_blank_long isValid_longKey not_short_longKey, get_rootless isValid_longKey]
    nofun

end Harvesting.Archive
