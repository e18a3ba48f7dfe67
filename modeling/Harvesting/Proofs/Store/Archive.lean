import Harvesting.Proofs.Disk.Basic
import Harvesting.Proofs.Json.Reader
import Harvesting.Store.Archive

/-!
# The store on disk, place by place

Each document has three places on the disk, one for each role, and no two documents share a place. What
an operation does is told by what there is at these places before and after it.

* `Archive.path_inj` — no two places are the same;
* `Archive.get_eq` — what is read is decided by what there is at the place of the document;
* `Archive.Changes` — one document is changed and no other; `Archive.changes_runSteps` for the steps of
  writing one, `Archive.changes_remove` for its removal;
* `Archive.Ready`, `Archive.runSteps_ready` — where a document can be stored, every step comes about;
  `Archive.put_ready`, `Archive.remove_ready` — the same of the operations;
* `Archive.Empty`, `Archive.blank` — stores in which there is nothing yet;
* `Archive.parse_pretty` — the text of a plain document is read as that document.
-/

namespace Harvesting

/-! ## Places -/

theorem Key.isName {key : String} (h : Key.isValid key = true) : Disk.IsName key := by
  simp only [Key.isValid, Bool.and_eq_true, decide_eq_true_eq, List.all_eq_true] at h
  obtain ⟨⟨hne, hhead⟩, hall⟩ := h
  refine ⟨?_, ?_, ?_, ?_⟩
  · intro hslash
    exact absurd (hall '/' hslash) (by decide)
  · rintro rfl
    exact hne rfl
  · rintro rfl
    exact hhead rfl
  · rintro rfl
    exact hhead rfl

namespace Archive

variable {a a' : Archive} {key key' : String} {slot slot' : Slot} {role role' : Role}

/-- The folder of the store. -/
def base (a : Archive) : Disk.Path := Disk.path a.cwd a.root

theorem folder_eq (h : Key.isValid key = true) : a.folder key = a.base ++ [key] :=
  Disk.path_join a.cwd a.root (Key.isName h)

theorem path_eq (h : Key.isValid key = true) : a.path key slot role = a.base ++ [key, fileName slot role] := by
  rw [path, folder_eq h, List.append_assoc]
  rfl

theorem fileName_inj (h : fileName slot role = fileName slot' role') : slot = slot' ∧ role = role' := by
  cases slot <;> cases slot' <;> cases role <;> cases role' <;>
    first | exact ⟨rfl, rfl⟩ | exact absurd h (by decide)

theorem short_fileName (slot : Slot) (role : Role) : Disk.Short (fileName slot role) := by
  cases slot <;> cases role <;> decide

/-- No two documents share a place, and no document has two of its places in one. -/
theorem path_inj (h : Key.isValid key = true) (h' : Key.isValid key' = true)
    (heq : a.path key slot role = a.path key' slot' role') : key = key' ∧ slot = slot' ∧ role = role' := by
  rw [path_eq h, path_eq h', List.append_cancel_left_eq] at heq
  obtain ⟨hkey, hfile⟩ := List.cons.inj heq
  exact ⟨hkey, fileName_inj (List.cons.inj hfile).1⟩

/-- A change at one place is none at another. -/
theorem not_prefix_path (h : Key.isValid key = true) (h' : Key.isValid key' = true)
    (hne : (key, slot, role) ≠ (key', slot', role')) :
    ¬ a.path key slot role <+: a.path key' slot' role' := by
  intro hprefix
  have heq : a.path key slot role = a.path key' slot' role' := by
    apply hprefix.eq_of_length
    rw [path_eq h, path_eq h', List.length_append, List.length_append]
    rfl
  obtain ⟨rfl, rfl, rfl⟩ := path_inj h h' heq
  exact hne rfl

/-! ## What there is -/

/-- What there is at a place of a document. -/
def there (a : Archive) (key : String) (slot : Slot) (role : Role) : Except Disk.Fault Disk.Entry :=
  Disk.look a.disk (a.path key slot role)

theorem path_split : a.path key slot role = a.folder key ++ [fileName slot role] := rfl

theorem folder_of_there {b : Disk.Bytes} (h : a.there key slot role = .ok (.file b)) :
    Disk.look a.disk (a.folder key) = .ok .folder := by
  rw [there, path_split] at h
  exact (Disk.folder_of_file h).1

/-- What is read from what there is at the place of a document. -/
def answer (id : String) : Except Disk.Fault Disk.Entry → Except Store.Fault (Option Json)
  | .ok (.file b) => (parse id b).map some
  | .ok .folder => .error (.io Disk.Fault.isFolder.message)
  | .error .notFound => .ok none
  | .error e => .error (.io e.message)

theorem get_eq (h : Key.isValid key = true) :
    Store.get a key slot = (answer (a.pathText key slot .current) (a.there key slot .current), a) := by
  show Archive.get a key slot = _
  rw [get, Store.validate, if_pos h, there, Disk.read_eq]
  cases Disk.look a.disk (a.path key slot .current) with
  | error e => cases e <;> rfl
  | ok e => cases e <;> rfl

theorem remove_eq (h : Key.isValid key = true) :
    Store.remove a key slot = match Disk.remove a.disk (a.path key slot .current) with
      | .ok disk => (.ok true, { a with disk := disk })
      | .error .notFound => (.ok false, a)
      | .error e => (.error (.io e.message), a) := by
  show Archive.remove a key slot = _
  cases hremove : Disk.remove a.disk (a.path key slot .current) with
  | error e => cases e <;> simp only [remove, Store.validate, if_pos h, hremove]
  | ok disk => simp only [remove, Store.validate, if_pos h, hremove]

theorem put_eq (h : Key.isValid key = true) (doc : Json) :
    Store.put a key slot doc = runSteps key slot (Disk.bytesOf doc.pretty) a putSteps := by
  show Archive.put a key slot doc = _
  rw [put, Store.validate, if_pos h]

theorem get_invalid (h : ¬ Key.isValid key = true) : Store.get a key slot = (.error (.invalidKey key), a) := by
  show Archive.get a key slot = _
  rw [get, Store.validate, if_neg h]

theorem put_invalid (h : ¬ Key.isValid key = true) (doc : Json) :
    Store.put a key slot doc = (.error (.invalidKey key), a) := by
  show Archive.put a key slot doc = _
  rw [put, Store.validate, if_neg h]

theorem remove_invalid (h : ¬ Key.isValid key = true) :
    Store.remove a key slot = (.error (.invalidKey key), a) := by
  show Archive.remove a key slot = _
  rw [remove, Store.validate, if_neg h]

/-- The text of a plain document is read as that document. -/
theorem parse_pretty (id : String) {doc : Json} (h : Json.Plain 0 doc) :
    parse id (Disk.bytesOf doc.pretty) = .ok doc := by
  rw [parse, Disk.textOf?_bytesOf]
  simp only [Json.read_pretty h]
  rfl

/-! ## Changes of one document -/

/-- The place of the role is free, or a file is there. -/
def Free (a : Archive) (key : String) (slot : Slot) (role : Role) : Prop :=
  (∃ b, a.there key slot role = .ok (.file b)) ∨ a.there key slot role = .error .notFound

/-- No name on the way to the source's folder is too long to be looked up there, or the store has its folder. -/
def Reachable (a : Archive) (key : String) : Prop :=
  (∀ name ∈ a.folder key, Disk.Short name) ∨ Disk.look a.disk a.base = .ok .folder

/--
From `a` to `a'`, a document was changed and no other: `now` is what there is at its place after that, and
only its own places and the folders on the way to them are not as they were.
-/
structure Changes (a a' : Archive) (key : String) (slot : Slot) (now : Except Disk.Fault Disk.Entry) : Prop where
  cwd : a'.cwd = a.cwd
  root : a'.root = a.root
  base : Disk.look a.disk a.base = .ok .folder → Disk.look a'.disk a.base = .ok .folder
  current : a'.there key slot .current = now
  free : ∀ role, a.Free key slot role → a'.Free key slot role
  elsewhere : ∀ key' slot' role', Key.isValid key' = true → (key', slot') ≠ (key, slot) → a.Reachable key' →
    a'.there key' slot' role' = a.there key' slot' role'

section

variable {now : Except Disk.Fault Disk.Entry}

theorem Changes.folder_eq (h : Changes a a' key slot now) (key' : String) : a'.folder key' = a.folder key' := by
  rw [Archive.folder, Archive.folder, h.cwd, h.root]

theorem Changes.base_eq (h : Changes a a' key slot now) : a'.base = a.base := by
  rw [Archive.base, Archive.base, h.cwd, h.root]

theorem Changes.pathText_eq (h : Changes a a' key slot now) (key' : String) (slot' : Slot) (role' : Role) :
    a'.pathText key' slot' role' = a.pathText key' slot' role' := by
  rw [Archive.pathText, Archive.pathText, h.root]

theorem Changes.reachable (h : Changes a a' key slot now) (hreach : a.Reachable key') : a'.Reachable key' := by
  rw [Reachable, h.folder_eq, h.base_eq]
  exact hreach.imp_right h.base

theorem Changes.refl : Changes a a key slot (a.there key slot .current) :=
  ⟨rfl, rfl, id, rfl, fun _ => id, fun _ _ _ _ _ _ => rfl⟩

theorem Changes.trans {a'' : Archive} {next : Except Disk.Fault Disk.Entry} (h : Changes a a' key slot now)
    (h' : Changes a' a'' key slot next) : Changes a a'' key slot next where
  cwd := h'.cwd.trans h.cwd
  root := h'.root.trans h.root
  base hbase := by
    rw [← h.base_eq]
    apply h'.base
    rw [h.base_eq]
    exact h.base hbase
  current := h'.current
  free role hfree := h'.free role (h.free role hfree)
  elsewhere key' slot' role' hvalid hne hreach := by
    rw [h'.elsewhere key' slot' role' hvalid hne (h.reachable hreach),
      h.elsewhere key' slot' role' hvalid hne hreach]

end

/-! ## Files -/

section

variable {b : Disk.Bytes} {disk : Disk.Node}

theorem not_prefix_base (h : Key.isValid key = true) : ¬ a.path key slot role <+: a.base := by
  intro hprefix
  have hlen := hprefix.length_le
  rw [path_eq h, List.length_append, List.length_cons, List.length_singleton] at hlen
  omega

/-- A change at one place is none at the others and none of the folders. -/
theorem changes_at (changed : Role → Prop) (h : Key.isValid key = true)
    (hkept : ∀ q, (∀ role, changed role → ¬ a.path key slot role <+: q) → Disk.look disk q = Disk.look a.disk q)
    (hfree : ∀ role, changed role → ({ a with disk := disk } : Archive).Free key slot role) :
    Changes a { a with disk := disk } key slot (({ a with disk := disk } : Archive).there key slot .current) where
  cwd := rfl
  root := rfl
  base hbase := (hkept a.base fun _ _ => not_prefix_base h).trans hbase
  current := rfl
  free role hrole := by
    by_cases hchanged : changed role
    · exact hfree role hchanged
    · have hthere : ({ a with disk := disk } : Archive).there key slot role = a.there key slot role := by
        apply hkept
        intro role' hrole'
        apply not_prefix_path h h
        rintro heq
        cases heq
        exact hchanged hrole'
      rw [Free, hthere]
      exact hrole
  elsewhere key' slot' role' hvalid hne _ := by
    apply hkept
    intro role'' _
    apply not_prefix_path h hvalid
    rintro heq
    cases heq
    exact hne rfl

/-- A file that is written at one of the places of a document. -/
theorem there_write (h : Key.isValid key = true)
    (hwrite : Disk.write a.disk (a.path key slot role) b = .ok disk) :
    ({ a with disk := disk } : Archive).there key slot role = .ok (.file b) ∧
      ∀ role', role' ≠ role → ({ a with disk := disk } : Archive).there key slot role' = a.there key slot role' := by
  obtain ⟨hhere, hkept⟩ := Disk.look_write hwrite
  refine ⟨hhere, ?_⟩
  intro role' hne
  apply hkept
  apply not_prefix_path h h
  intro heq
  exact hne (Prod.mk.inj (Prod.mk.inj heq).2).2.symm

theorem changes_write (h : Key.isValid key = true) (hrole : role ≠ .current)
    (hwrite : Disk.write a.disk (a.path key slot role) b = .ok disk) :
    Changes a { a with disk := disk } key slot (a.there key slot .current) := by
  obtain ⟨hhere, hother⟩ := there_write h hwrite
  rw [← hother .current (Ne.symm hrole)]
  refine changes_at (· = role) h ?_ ?_
  · intro q hq
    exact (Disk.look_write hwrite).2 q (hq role rfl)
  · rintro role' rfl
    exact .inl ⟨b, hhere⟩

theorem changes_remove (h : Key.isValid key = true)
    (hremove : Disk.remove a.disk (a.path key slot .current) = .ok disk) :
    Changes a { a with disk := disk } key slot (.error .notFound) := by
  rw [path_split] at hremove
  obtain ⟨hgone, hkept⟩ := Disk.look_remove hremove
  have hthere : ({ a with disk := disk } : Archive).there key slot .current = .error .notFound := hgone
  rw [← hthere]
  refine changes_at (· = .current) h ?_ ?_
  · intro q hq
    exact hkept q (hq .current rfl)
  · rintro role rfl
    exact .inr hgone

end

/-! ## Folders -/

/-- What there is at a place is not changed where folders are made on the way to any document. -/
theorem there_makeFolders (h : Key.isValid key = true) (i : Nat) (hvalid : Key.isValid key' = true)
    (hreach : a.Reachable key') :
    ({ a with disk := (Disk.makeFolders a.disk ((a.folder key).take i)).2 } : Archive).there key' slot' role' =
      a.there key' slot' role' := by
  show Disk.look _ (a.path key' slot' role') = Disk.look a.disk (a.path key' slot' role')
  apply Disk.look_makeFolders
  intro hfree
  constructor
  · intro hprefix
    have hlen := hprefix.length_le
    rw [List.length_take, folder_eq h, path_eq hvalid, List.length_append, List.length_append] at hlen
    simp only [List.length_cons, List.length_nil] at hlen
    omega
  · rw [path_split]
    intro name hname
    rcases List.mem_append.1 hname with hname | hname
    · rcases hreach with hshort | hbase
      · exact hshort name hname
      · rw [folder_eq hvalid] at hname
        rcases List.mem_append.1 hname with hname | hname
        · exact Disk.short_of_look hbase name hname
        · cases List.mem_singleton.1 hname
          -- a name that is too long is refused, so nothing could be said to be free there
          by_cases hshort : Disk.Short key'
          · exact hshort
          · rw [path_eq hvalid, Disk.look_long_in hbase hshort] at hfree
            cases hfree
    · cases List.mem_singleton.1 hname
      exact short_fileName slot' role'

/-- Folders that are made on the way to a document. -/
theorem changes_makeFolders (h : Key.isValid key = true) (hreach : a.Reachable key) (i : Nat) :
    Changes a { a with disk := (Disk.makeFolders a.disk ((a.folder key).take i)).2 } key slot
      (a.there key slot .current) where
  cwd := rfl
  root := rfl
  base hbase := by
    refine (Disk.look_makeFolders ?_).trans hbase
    intro hfree
    cases hbase.symm.trans hfree
  current := there_makeFolders h i h hreach
  free role hfree := by
    rw [Free, there_makeFolders h i h hreach]
    exact hfree
  elsewhere key' slot' role' hvalid _ hreach' := there_makeFolders h i hvalid hreach'

/-! ## Steps -/

section

variable {b : Disk.Bytes} {disk : Disk.Node}

theorem changed_ok {n : Disk.Node} {r : Except Disk.Fault Disk.Node} (h : changed n r = (.ok (), disk)) :
    r = .ok disk := by
  cases r with
  | error e => cases h
  | ok m => cases h; rfl

theorem changes_makeFolder (h : Key.isValid key = true) (hreach : a.Reachable key)
    (hrun : Step.makeFolder.run a key slot b = (.ok (), disk)) :
    Changes a { a with disk := disk } key slot (a.there key slot .current) := by
  have hchanges : Changes a _ key slot _ := changes_makeFolders h hreach (a.folder key).length
  rw [List.take_length] at hchanges
  rw [Step.run] at hrun
  rwa [hrun] at hchanges

theorem write_of_writeTemporary (hrun : Step.writeTemporary.run a key slot b = (.ok (), disk)) :
    Disk.write a.disk (a.path key slot .temporary) b = .ok disk := by
  rw [Step.run] at hrun
  exact changed_ok hrun

/-- A backup is a copy of what is read; none is made where there is no document. -/
theorem write_of_backUp (hrun : Step.backUp.run a key slot b = (.ok (), disk)) :
    (∃ c, a.there key slot .current = .ok (.file c) ∧
      Disk.write a.disk (a.path key slot .backup) c = .ok disk) ∨
    a.there key slot .current = .error .notFound ∧ disk = a.disk := by
  rw [Step.run] at hrun
  obtain ⟨there, hexists, hcopy⟩ := bind_eq_ok.1 (changed_ok hrun)
  rw [Disk.exists?_eq] at hexists
  cases hlook : Disk.look a.disk (a.path key slot .current) with
  | error e =>
      rw [hlook] at hexists
      cases e with
      | notFound =>
          cases hexists
          cases hcopy
          exact .inr ⟨hlook, rfl⟩
      | _ => cases hexists
  | ok e =>
      rw [hlook] at hexists
      cases hexists
      cases e with
      | file c =>
          rw [if_pos rfl, Disk.copy_eq hlook] at hcopy
          exact .inl ⟨c, hlook, hcopy⟩
      | folder =>
          rw [if_pos rfl, Disk.copy_folder hlook] at hcopy
          cases hcopy

theorem changes_backUp (h : Key.isValid key = true)
    (hrun : Step.backUp.run a key slot b = (.ok (), disk)) :
    Changes a { a with disk := disk } key slot (a.there key slot .current) ∧
      ({ a with disk := disk } : Archive).there key slot .temporary = a.there key slot .temporary ∧
      ∀ c, a.there key slot .current = .ok (.file c) →
        ({ a with disk := disk } : Archive).there key slot .backup = .ok (.file c) := by
  rcases write_of_backUp hrun with ⟨c, hfile, hwrite⟩ | ⟨hfree, rfl⟩
  · obtain ⟨hthere, hother⟩ := there_write h hwrite
    refine ⟨changes_write h (by decide) hwrite, hother .temporary (by decide), ?_⟩
    intro c' hc'
    cases hfile.symm.trans hc'
    exact hthere
  · refine ⟨Changes.refl, rfl, ?_⟩
    intro c hc
    cases hfree.symm.trans hc

theorem changes_install (h : Key.isValid key = true) (htemp : a.there key slot .temporary = .ok (.file b))
    (hrun : Step.install.run a key slot b = (.ok (), disk)) :
    Changes a { a with disk := disk } key slot (.ok (.file b)) ∧
      ({ a with disk := disk } : Archive).there key slot .backup = a.there key slot .backup := by
  rw [Step.run] at hrun
  have hne : fileName slot .temporary ≠ fileName slot .current := by
    intro heq
    cases (fileName_inj heq).2
  obtain ⟨hcurrent, hgone, hkept⟩ := Disk.look_rename htemp hne (changed_ok hrun)
  constructor
  · have hthere : ({ a with disk := disk } : Archive).there key slot .current = .ok (.file b) := hcurrent
    rw [← hthere]
    refine changes_at (· ≠ .backup) h ?_ ?_
    · intro q hq
      exact hkept q (hq .temporary (by decide)) (hq .current (by decide))
    · intro role hrole
      cases role with
      | current => exact .inl ⟨b, hcurrent⟩
      | temporary => exact .inr hgone
      | backup => exact absurd rfl hrole
  · exact hkept _ (not_prefix_path h h (by simp)) (not_prefix_path h h (by simp))

end

/-! ## Documents that are put -/

section

variable {b : Disk.Bytes}

/-- `a'` is the archive after steps that came about, `rest` the steps that are still to be done. -/
inductive Ran (key : String) (slot : Slot) (b : Disk.Bytes) : Archive → List Step → Archive → List Step → Prop
  | start (a : Archive) (steps : List Step) : Ran key slot b a steps a steps
  | step {a a' : Archive} {step : Step} {steps rest : List Step} {disk : Disk.Node} :
    step.run a key slot b = (.ok (), disk) → Ran key slot b { a with disk := disk } steps a' rest →
    Ran key slot b a (step :: steps) a' rest

theorem ran_of_runSteps {steps : List Step} (h : runSteps key slot b a steps = (.ok (), a')) :
    Ran key slot b a steps a' [] := by
  induction steps generalizing a with
  | nil =>
      cases h
      exact .start _ []
  | cons step steps ih =>
      rw [runSteps] at h
      split at h
      · next disk hrun => exact .step hrun (ih h)
      · cases h

theorem Ran.runSteps {steps : List Step} (h : Ran key slot b a steps a' []) :
    runSteps key slot b a steps = (.ok (), a') := by
  generalize hrest : ([] : List Step) = rest at h
  induction h with
  | start a steps =>
      subst hrest
      rfl
  | step hrun _ ih =>
      rw [Archive.runSteps, hrun]
      exact ih hrest

theorem Ran.suffix {steps rest : List Step} (h : Ran key slot b a steps a' rest) : rest <:+ steps := by
  induction h with
  | start a steps => exact List.suffix_rfl
  | @step _ _ step steps rest _ _ _ ih => exact ih.trans (List.suffix_cons step steps)

/-- Until the new document is moved into place, what is read is what was read. -/
theorem Ran.changes {steps rest : List Step} (h : Ran key slot b a steps a' rest) (hnodup : steps.Nodup)
    (hrest : .install ∈ rest) (hvalid : Key.isValid key = true) (hreach : a.Reachable key) :
    Changes a a' key slot (a.there key slot .current) := by
  induction h with
  | start a steps => exact Changes.refl
  | @step a a' step steps rest disk hrun hran ih =>
      obtain ⟨hnot, hnodup'⟩ := List.nodup_cons.1 hnodup
      have hchanges : Changes a { a with disk := disk } key slot (a.there key slot .current) := by
        cases step with
        | makeFolder => exact changes_makeFolder hvalid hreach hrun
        | writeTemporary => exact changes_write hvalid (by decide) (write_of_writeTemporary hrun)
        | backUp => exact (changes_backUp hvalid hrun).1
        | install => exact absurd (hran.suffix.subset hrest) hnot
      have hlater := ih hnodup' hrest (hchanges.reachable hreach)
      rw [hchanges.current] at hlater
      exact hchanges.trans hlater

theorem nodup_putSteps : putSteps.Nodup := by decide

/-- After all steps the bytes are in place, and the bytes that were there before are kept beside them. -/
theorem changes_runSteps (hvalid : Key.isValid key = true) (hreach : a.Reachable key)
    (h : runSteps key slot b a putSteps = (.ok (), a')) :
    Changes a a' key slot (.ok (.file b)) ∧
      ∀ c, a.there key slot .current = .ok (.file c) → a'.there key slot .backup = .ok (.file c) := by
  cases ran_of_runSteps h with
  | @step _ _ _ _ _ d₁ hrun₁ hran =>
  cases hran with
  | @step _ _ _ _ _ d₂ hrun₂ hran =>
  cases hran with
  | @step _ _ _ _ _ d₃ hrun₃ hran =>
  cases hran with
  | @step _ _ _ _ _ d₄ hrun₄ hran =>
  cases hran
  have h₁ := changes_makeFolder hvalid hreach hrun₁
  have hwrite := write_of_writeTemporary hrun₂
  have h₂ := changes_write hvalid (by decide) hwrite
  have htemp := (there_write hvalid hwrite).1
  obtain ⟨h₃, htemp', hbackup⟩ := changes_backUp hvalid hrun₃
  obtain ⟨h₄, hbackup'⟩ := changes_install hvalid (htemp'.trans htemp) hrun₄
  refine ⟨((h₁.trans h₂).trans h₃).trans h₄, ?_⟩
  intro c hc
  rw [hbackup']
  apply hbackup c
  rw [h₂.current, h₁.current, hc]

end

/-! ## Where documents can be stored -/

/-- The document can be stored: its folder can have its name, and its places are free or hold files. -/
structure Ready (a : Archive) (key : String) (slot : Slot) : Prop where
  valid : Key.isValid key = true
  short : ∀ name ∈ a.folder key, Disk.Short name
  free : ∀ role, a.Free key slot role

section

variable {b : Disk.Bytes} {now : Except Disk.Fault Disk.Entry}

theorem Ready.reachable (h : a.Ready key slot) : a.Reachable key := .inl h.short

/-- Every document that can be stored can still be stored after a change of any of them. -/
theorem Changes.ready (h : Changes a a' key slot now) (hready : a.Ready key' slot') : a'.Ready key' slot' where
  valid := hready.valid
  short := by
    rw [h.folder_eq]
    exact hready.short
  free role := by
    by_cases heq : (key', slot') = (key, slot)
    · cases heq
      exact h.free role (hready.free role)
    · rw [Free, h.elsewhere key' slot' role hready.valid heq hready.reachable]
      exact hready.free role

/-- The folder of a document that can be stored is there or can be made. -/
theorem Ready.folder (h : a.Ready key slot) :
    Disk.look a.disk (a.folder key) = .ok .folder ∨ Disk.look a.disk (a.folder key) = .error .notFound := by
  have hfree := h.free .current
  rw [Free, there, path_split] at hfree
  rcases hfree with ⟨c, hfile⟩ | hfree
  · exact .inl (Disk.folder_of_file hfile).1
  · rcases Disk.look_above (.inr hfree) with ⟨hfolder, -⟩ | hnone
    · exact .inl hfolder
    · exact .inr hnone

theorem not_folder_of_free (h : a.Free key slot role) : a.there key slot role ≠ .ok .folder := by
  rcases h with ⟨c, hfile⟩ | hfree
  · simp [hfile]
  · simp [hfree]

/-- A file can be written at a place that is not a folder, once there is a folder for it. -/
theorem write_ready (h : a.Ready key slot) (hfolder : Disk.look a.disk (a.folder key) = .ok .folder)
    (role : Role) (b : Disk.Bytes) : ∃ disk, Disk.write a.disk (a.path key slot role) b = .ok disk := by
  rw [path_split]
  exact Disk.write_ok b hfolder (short_fileName slot role) (not_folder_of_free (h.free role))

theorem makeFolder_ready (h : a.Ready key slot) : ∃ disk, Step.makeFolder.run a key slot b = (.ok (), disk) ∧
    Disk.look disk (a.folder key) = .ok .folder := by
  obtain ⟨hok, hthere⟩ := Disk.makeFolders_ok h.folder h.short
  refine ⟨_, ?_, hthere⟩
  rw [Step.run, ← hok]

theorem writeTemporary_ready (h : a.Ready key slot) (hfolder : Disk.look a.disk (a.folder key) = .ok .folder) :
    ∃ disk, Step.writeTemporary.run a key slot b = (.ok (), disk) := by
  obtain ⟨disk, hwrite⟩ := write_ready h hfolder .temporary b
  refine ⟨disk, ?_⟩
  rw [Step.run, hwrite]
  rfl

theorem backUp_ready (h : a.Ready key slot) (hfolder : Disk.look a.disk (a.folder key) = .ok .folder) :
    ∃ disk, Step.backUp.run a key slot b = (.ok (), disk) := by
  have hfree := h.free .current
  rw [Free, there] at hfree
  rcases hfree with ⟨c, hfile⟩ | hfree
  · obtain ⟨disk, hwrite⟩ := write_ready h hfolder .backup c
    refine ⟨disk, ?_⟩
    have hexists : Disk.exists? a.disk (a.path key slot .current) = .ok true := by
      rw [Disk.exists?_eq, hfile]
    rw [Step.run, hexists]
    simp only [bind, Except.bind, if_true]
    rw [Disk.copy_eq hfile, hwrite]
    rfl
  · refine ⟨a.disk, ?_⟩
    have hexists : Disk.exists? a.disk (a.path key slot .current) = .ok false := by
      rw [Disk.exists?_eq, hfree]
    rw [Step.run, hexists]
    rfl

theorem install_ready (h : a.Ready key slot) (htemp : a.there key slot .temporary = .ok (.file b)) :
    ∃ disk, Step.install.run a key slot b = (.ok (), disk) := by
  have hne : fileName slot .temporary ≠ fileName slot .current := by
    intro heq
    cases (fileName_inj heq).2
  have hfree := not_folder_of_free (h.free .current)
  rw [there, path_split] at htemp hfree
  obtain ⟨disk, hrename⟩ := Disk.rename_ok htemp hne (short_fileName slot .current) hfree
  refine ⟨disk, ?_⟩
  rw [Step.run, path_split, path_split, hrename]
  rfl

/-- Every step comes about where the document can be stored. -/
theorem runSteps_ready (h : a.Ready key slot) (b : Disk.Bytes) :
    ∃ a', runSteps key slot b a putSteps = (.ok (), a') := by
  obtain ⟨d₁, hrun₁, hfolder⟩ := makeFolder_ready (b := b) h
  have hready₁ := (changes_makeFolder h.valid h.reachable hrun₁).ready h
  obtain ⟨d₂, hrun₂⟩ := writeTemporary_ready (b := b) hready₁ hfolder
  have hwrite := write_of_writeTemporary hrun₂
  have htemp := (there_write h.valid hwrite).1
  have hready₂ := (changes_write h.valid (by decide) hwrite).ready hready₁
  obtain ⟨d₃, hrun₃⟩ := backUp_ready (b := b) hready₂ (folder_of_there htemp)
  obtain ⟨h₃, htemp', -⟩ := changes_backUp h.valid hrun₃
  obtain ⟨d₄, hrun₄⟩ := install_ready (h₃.ready hready₂) (htemp'.trans htemp)
  exact ⟨_, (Ran.step hrun₁ (.step hrun₂ (.step hrun₃ (.step hrun₄ (.start _ []))))).runSteps⟩

/-- The store has its folder, and nothing is in it. -/
structure Empty (a : Archive) : Prop where
  base : Disk.look a.disk a.base = .ok .folder
  nothing : ∀ name, Disk.Short name → Disk.look a.disk (a.base ++ [name]) = .error .notFound

theorem Empty.there (h : a.Empty) (hvalid : Key.isValid key = true) (hshort : Disk.Short key) :
    a.there key slot role = .error .notFound := by
  have hnone := Disk.look_of_notFound (h.nothing key hshort) [fileName slot role]
  rw [List.append_assoc] at hnone
  rw [Archive.there, path_eq hvalid]
  exact hnone

theorem Empty.ready (h : a.Empty) (hvalid : Key.isValid key = true) (hshort : Disk.Short key) :
    a.Ready key slot where
  valid := hvalid
  short := by
    rw [folder_eq hvalid]
    intro name hname
    rcases List.mem_append.1 hname with hname | hname
    · exact Disk.short_of_look h.base name hname
    · cases List.mem_singleton.1 hname
      exact hshort
  free _ := .inr (h.there hvalid hshort)

/-- A store that has its folder and nothing in it, on a disk with nothing else. -/
def blank : Archive := ⟨.folder [("home", .folder [("store", .folder [])])], "/home", "store"⟩

theorem base_blank : blank.base = ["home", "store"] := by
  rw [base, blank]
  decide +kernel

theorem blank_empty : blank.Empty where
  base := by
    rw [base_blank]
    rfl
  nothing name hshort := by
    have hnone : Disk.look (.folder []) [name] = .error .notFound := by
      rw [Disk.look_folder hshort]
      rfl
    rw [base_blank, ← hnone]
    rfl

/-! ## The operations -/

/-- A document that can be stored is put, and is then in place. -/
theorem put_ready (h : a.Ready key slot) (doc : Json) :
    ∃ a', Store.put a key slot doc = (.ok (), a') ∧
      Changes a a' key slot (.ok (.file (Disk.bytesOf doc.pretty))) := by
  obtain ⟨a', hrun⟩ := runSteps_ready h (Disk.bytesOf doc.pretty)
  exact ⟨a', (put_eq h.valid doc).trans hrun, (changes_runSteps h.valid h.reachable hrun).1⟩

/-- A document that can be stored can be removed: it is gone, and the answer is whether it was there. -/
theorem remove_ready (h : a.Ready key slot) :
    ∃ a', Store.remove a key slot = (.ok (decide (a.there key slot .current ≠ .error .notFound)), a') ∧
      Changes a a' key slot (.error .notFound) := by
  rcases h.free .current with ⟨c, hfile⟩ | hfree
  · have hlook := hfile
    rw [there, path_split] at hlook
    obtain ⟨disk, hdisk⟩ := Disk.remove_ok hlook
    refine ⟨{ a with disk := disk }, ?_, changes_remove h.valid hdisk⟩
    rw [remove_eq h.valid, path_split, hdisk, hfile]
    rfl
  · have hlook := hfree
    rw [there, path_split] at hlook
    refine ⟨a, ?_, ?_⟩
    · rw [remove_eq h.valid, path_split, Disk.remove_of_notFound hlook, hfree]
      rfl
    · have hchanges : Changes a a key slot (a.there key slot .current) := Changes.refl
      rwa [hfree] at hchanges

end

end Archive

end Harvesting
