import Harvesting.Disk.Basic
import Harvesting.Proofs.Except

/-!
# What is at a path

A disk is known by what there is at each path. Every operation changes that at its own path and leaves
it elsewhere, so nothing else need be known of a disk.

* `Disk.Entry`, `Disk.look` — what there is at a path;
* `Disk.look_write`, `Disk.look_remove`, `Disk.look_rename`, `Disk.look_makeFolders` — what an operation
  that succeeds leaves at its path and elsewhere;
* `Disk.write_ok`, `Disk.remove_ok`, `Disk.rename_ok`, `Disk.makeFolders_ok` — when it succeeds;
* `Disk.textOf?_bytesOf` — a text is read from its bytes;
* `Disk.path_join` — the path of a name in a folder.
-/

namespace Harvesting.Disk

/-! ## Texts -/

theorem toList_loop (bs : ByteArray) (i : Nat) (r : List UInt8) :
    ByteArray.toList.loop bs i r = r.reverse ++ bs.data.toList.drop i := by
  fun_induction ByteArray.toList.loop bs i r with
  | case1 i r hi ih =>
      have hi' : i < bs.data.toList.length := by simpa using hi
      have hget : bs.get! i = bs.data.toList[i] := by
        rw [ByteArray.get!, Array.getElem_toList]
        exact getElem!_pos bs.data i hi
      rw [ih, hget, List.drop_eq_getElem_cons hi']
      simp
  | case2 i r hi =>
      have hi' : bs.data.toList.length ≤ i := by simpa using hi
      rw [List.drop_of_length_le hi', List.append_nil]

/-- A text is read from the bytes that it was written as. -/
theorem textOf?_bytesOf (s : String) : textOf? (bytesOf s) = some s := by
  have hbytes : (⟨(bytesOf s).toArray⟩ : ByteArray) = s.toByteArray := by
    rw [bytesOf, ByteArray.toList, toList_loop]
    simp
  rw [textOf?, hbytes, String.fromUTF8?, dif_pos s.isValidUTF8]
  rfl

/-! ## Entries by name -/

theorem child?_setEntry (name other : String) (n : Node) (es : List (String × Node)) :
    child? other (setEntry name n es) = if other = name then some n else child? other es := by
  induction es with
  | nil => simp [setEntry, child?, eq_comm]
  | cons e es ih =>
      obtain ⟨k, m⟩ := e
      rw [setEntry]
      split
      · next hk =>
        subst hk
        by_cases h : name = other
        · simp [child?, h]
        · simp [child?, h, Ne.symm h]
      split
      · by_cases h : name = other
        · simp [child?, h]
        · simp [child?, h, Ne.symm h]
      · next hk _ =>
        rw [child?, ih, child?]
        by_cases hother : k = other
        · subst hother
          simp [Ne.symm hk]
        · simp [hother]

theorem child?_dropEntry (name other : String) (es : List (String × Node)) :
    child? other (dropEntry name es) = if other = name then none else child? other es := by
  induction es with
  | nil => simp [dropEntry, child?]
  | cons e es ih =>
      obtain ⟨k, m⟩ := e
      rw [dropEntry] at ih ⊢
      by_cases hk : k = name
      · subst hk
        rw [List.filter_cons_of_neg (by simp), ih, child?]
        by_cases h : k = other
        · simp [h]
        · simp [h, Ne.symm h]
      · rw [List.filter_cons_of_pos (by simpa using hk), child?, child?, ih]
        by_cases h : k = other
        · subst h
          simp [hk]
        · simp [h]

/-! ## Looking -/

/-- What there is at a path. -/
inductive Entry where
  | file (b : Bytes)
  | folder
  deriving Repr, DecidableEq

def Node.entry : Node → Entry
  | .file b => .file b
  | .folder _ => .folder

/-- What there is at a path, or why nothing can be found there. -/
def look (n : Node) (p : Path) : Except Fault Entry := (at? n p).map Node.entry

/-- The name is not too long for a disk. -/
def Short (name : String) : Prop := name.utf8ByteSize ≤ maxName

instance (name : String) : Decidable (Short name) := inferInstanceAs (Decidable (_ ≤ _))

theorem look_nil (n : Node) : look n [] = .ok n.entry := rfl

theorem look_file (b : Bytes) (name : String) (p : Path) : look (.file b) (name :: p) = .error .notFolder := rfl

theorem look_folder {name : String} (h : Short name) (es : List (String × Node)) (p : Path) :
    look (.folder es) (name :: p) = match child? name es with
      | some m => look m p
      | none => .error .notFound := by
  rw [look, at?, if_neg (Nat.not_lt.2 h)]
  cases child? name es <;> rfl

theorem look_long {name : String} (h : ¬ Short name) (es : List (String × Node)) (p : Path) :
    look (.folder es) (name :: p) = .error .nameTooLong := by
  rw [look, at?, if_pos (Nat.lt_of_not_le h)]
  rfl

theorem read_eq (n : Node) (p : Path) : read n p = match look n p with
    | .ok (.file b) => .ok b
    | .ok .folder => .error .isFolder
    | .error e => .error e := by
  rw [read, look]
  cases at? n p with
  | error e => rfl
  | ok m => cases m <;> rfl

theorem exists?_eq (n : Node) (p : Path) : exists? n p = match look n p with
    | .ok _ => .ok true
    | .error .notFound => .ok false
    | .error e => .error e := by
  rw [exists?, look]
  cases at? n p with
  | error e => cases e <;> rfl
  | ok m => rfl

/-- What is found below a name is found in the child of that name. -/
theorem at?_cons {n m : Node} {x : String} {p : Path} (h : at? n (x :: p) = .ok m) :
    ∃ es c, n = .folder es ∧ Short x ∧ child? x es = some c ∧ at? c p = .ok m := by
  cases n with
  | file b => cases h
  | folder es =>
      rw [at?] at h
      split at h
      · cases h
      · next hx =>
        split at h
        · next c hchild => exact ⟨es, c, rfl, Nat.le_of_not_lt hx, hchild, h⟩
        · cases h

theorem look_cons {n : Node} {x : String} {p : Path} {e : Entry} (h : look n (x :: p) = .ok e) :
    ∃ es c, n = .folder es ∧ Short x ∧ child? x es = some c ∧ look c p = .ok e := by
  obtain ⟨m, hat, hm⟩ := map_eq_ok.1 h
  obtain ⟨es, c, rfl, hx, hchild, hat⟩ := at?_cons hat
  refine ⟨es, c, rfl, hx, hchild, ?_⟩
  rw [look, hat]
  exact congrArg Except.ok hm

/-- What is missing below a name is missing in the child of that name, or there is no such child. -/
theorem look_cons_notFound {n : Node} {x : String} {p : Path} (h : look n (x :: p) = .error .notFound) :
    ∃ es, n = .folder es ∧ Short x ∧
      (child? x es = none ∨ ∃ c, child? x es = some c ∧ look c p = .error .notFound) := by
  cases n with
  | file b => cases h
  | folder es =>
      by_cases hx : Short x
      · rw [look_folder hx] at h
        cases hchild : child? x es with
        | none => exact ⟨es, rfl, hx, .inl hchild⟩
        | some c =>
            rw [hchild] at h
            exact ⟨es, rfl, hx, .inr ⟨c, hchild, h⟩⟩
      · rw [look_long hx] at h
        cases h

/-- Folders that agree on the child of a name lead to the same below that name. -/
theorem look_congr {x : String} {es es' : List (String × Node)} (h : child? x es' = child? x es) (p : Path) :
    look (.folder es') (x :: p) = look (.folder es) (x :: p) := by
  by_cases hx : Short x
  · rw [look_folder hx, look_folder hx, h]
  · rw [look_long hx, look_long hx]

/-- Above anything that is found there are folders, and so there are above a place that is free. -/
theorem look_above {n : Node} {p : Path} {name : String}
    (h : (∃ e, look n (p ++ [name]) = .ok e) ∨ look n (p ++ [name]) = .error .notFound) :
    look n p = .ok .folder ∧ Short name ∨ look n p = .error .notFound := by
  induction p generalizing n with
  | nil =>
      rcases h with ⟨e, h⟩ | h
      · obtain ⟨es, c, rfl, hname, -⟩ := look_cons h
        exact .inl ⟨rfl, hname⟩
      · obtain ⟨es, rfl, hname, -⟩ := look_cons_notFound h
        exact .inl ⟨rfl, hname⟩
  | cons x p ih =>
      rcases h with ⟨e, h⟩ | h
      · obtain ⟨es, c, rfl, hx, hchild, h⟩ := look_cons h
        rw [look_folder hx, hchild]
        exact ih (.inl ⟨e, h⟩)
      · obtain ⟨es, rfl, hx, hnone | ⟨c, hchild, h⟩⟩ := look_cons_notFound h
        · rw [look_folder hx, hnone]
          exact .inr rfl
        · rw [look_folder hx, hchild]
          exact ih (.inr h)

/-- In a folder there is nothing with a name that is too long. -/
theorem look_long_in {n : Node} {p : Path} {name : String} (h : look n p = .ok .folder) (hname : ¬ Short name)
    (q : Path) : look n (p ++ name :: q) = .error .nameTooLong := by
  induction p generalizing n with
  | nil =>
      cases n with
      | file b => cases h
      | folder es => exact look_long hname es q
  | cons x p ih =>
      obtain ⟨es, c, rfl, hx, hchild, h⟩ := look_cons h
      rw [List.cons_append, look_folder hx, hchild]
      exact ih h

/-- No name on the way to anything that is found is too long. -/
theorem short_of_look {n : Node} {p : Path} {e : Entry} (h : look n p = .ok e) : ∀ name ∈ p, Short name := by
  induction p generalizing n with
  | nil => simp
  | cons x p ih =>
      obtain ⟨es, c, rfl, hx, -, h⟩ := look_cons h
      exact List.forall_mem_cons.2 ⟨hx, ih h⟩

/-- In a folder that is not there, nothing is. -/
theorem look_of_notFound {n : Node} {p : Path} (h : look n p = .error .notFound) (q : Path) :
    look n (p ++ q) = .error .notFound := by
  induction p generalizing n with
  | nil => cases h
  | cons x p ih =>
      obtain ⟨es, rfl, hx, hnone | ⟨c, hchild, h⟩⟩ := look_cons_notFound h
      · rw [List.cons_append, look_folder hx, hnone]
      · rw [List.cons_append, look_folder hx, hchild]
        exact ih h

/-! ## Changes in a folder -/

section

variable {f : String → List (String × Node) → Except Fault (List (String × Node))} {n n' : Node} {p q : Path}
  {name : String} {es : List (String × Node)}

/-- A folder is found by its entries. -/
theorem at?_of_look (h : look n p = .ok .folder) : ∃ es, at? n p = .ok (.folder es) := by
  obtain ⟨m, hat, hm⟩ := map_eq_ok.1 h
  cases m with
  | file b => cases hm
  | folder es => exact ⟨es, hat⟩

/-- What is found where a folder has this child. -/
def found : Option Node → Except Fault Entry
  | some m => .ok m.entry
  | none => .error .notFound

theorem look_entry (hat : at? n p = .ok (.folder es)) (hname : Short name) :
    look n (p ++ [name]) = found (child? name es) := by
  induction p generalizing n with
  | nil =>
      cases hat
      rw [List.nil_append, look_folder hname]
      cases child? name es <;> rfl
  | cons x p ih =>
      obtain ⟨fs, c, rfl, hx, hchild, hat⟩ := at?_cons hat
      rw [List.cons_append, look_folder hx, hchild]
      exact ih hat

theorem inFolder_single (hname : Short name) (es : List (String × Node)) :
    inFolder f (.folder es) [name] = (f name es).map .folder := by
  rw [inFolder, if_neg (Nat.not_lt.2 hname)]

theorem exists_cons_of_append (p : Path) (name : String) : ∃ y r, p ++ [name] = y :: r := by
  cases p with
  | nil => exact ⟨_, _, rfl⟩
  | cons y p => exact ⟨_, _, rfl⟩

/-- Where the path goes on, the folder itself is only put back into its own folder. -/
theorem inFolder_cons {x : String} (hx : Short x) (es : List (String × Node)) (p : Path) (name : String) :
    inFolder f (.folder es) (x :: (p ++ [name])) = match child? x es with
      | some c => (inFolder f c (p ++ [name])).map fun c => .folder (setEntry x c es)
      | none => .error .notFound := by
  obtain ⟨y, r, hr⟩ := exists_cons_of_append p name
  cases hchild : child? x es with
  | none => simp only [hr, inFolder, if_neg (Nat.not_lt.2 hx), hchild]
  | some c => simp only [hr, inFolder, if_neg (Nat.not_lt.2 hx), hchild]

theorem inFolder_single_ok (h : inFolder f n [name] = .ok n') :
    ∃ es es', n = .folder es ∧ Short name ∧ f name es = .ok es' ∧ n' = .folder es' := by
  cases n with
  | file b => cases h
  | folder es =>
      rw [inFolder] at h
      split at h
      · cases h
      · next hname =>
        obtain ⟨es', hes, rfl⟩ := map_eq_ok.1 h
        exact ⟨es, es', rfl, Nat.le_of_not_lt hname, hes, rfl⟩

theorem inFolder_cons_ok {x : String} (h : inFolder f n (x :: (p ++ [name])) = .ok n') :
    ∃ es c c', n = .folder es ∧ Short x ∧ child? x es = some c ∧ inFolder f c (p ++ [name]) = .ok c' ∧
      n' = .folder (setEntry x c' es) := by
  obtain ⟨y, r, hr⟩ := exists_cons_of_append p name
  rw [hr] at h ⊢
  cases n with
  | file b => cases h
  | folder es =>
      rw [inFolder] at h
      split at h
      · cases h
      · next hx =>
        split at h
        · next c hchild =>
          obtain ⟨c', hc, rfl⟩ := map_eq_ok.1 h
          exact ⟨es, c, c', rfl, Nat.le_of_not_lt hx, hchild, hc, rfl⟩
        · cases h

/-- A change in a folder comes about as far as its entries can be changed. -/
theorem inFolder_eq (hat : at? n p = .ok (.folder es)) (hname : Short name) :
    ∃ g, inFolder f n (p ++ [name]) = (f name es).map g := by
  induction p generalizing n with
  | nil =>
      cases hat
      exact ⟨_, inFolder_single hname es⟩
  | cons x p ih =>
      obtain ⟨fs, c, rfl, hx, hchild, hat⟩ := at?_cons hat
      obtain ⟨g, hg⟩ := ih hat
      rw [List.cons_append, inFolder_cons hx, hchild]
      simp only [hg]
      refine ⟨fun es => .folder (setEntry x (g es) fs), ?_⟩
      cases f name es <;> rfl

theorem inFolder_ok (hat : at? n p = .ok (.folder es)) (hname : Short name) (hf : ∃ es', f name es = .ok es') :
    ∃ n', inFolder f n (p ++ [name]) = .ok n' := by
  obtain ⟨es', hes⟩ := hf
  obtain ⟨g, hg⟩ := inFolder_eq (f := f) hat hname
  exact ⟨g es', by rw [hg, hes]; rfl⟩

theorem inFolder_error {e : Fault} (hat : at? n p = .ok (.folder es)) (hname : Short name)
    (hf : f name es = .error e) : inFolder f n (p ++ [name]) = .error e := by
  obtain ⟨g, hg⟩ := inFolder_eq (f := f) hat hname
  rw [hg, hf]
  rfl

theorem inFolder_of_notFound (h : look n p = .error .notFound) :
    inFolder f n (p ++ [name]) = .error .notFound := by
  induction p generalizing n with
  | nil => cases h
  | cons x p ih =>
      obtain ⟨es, rfl, hx, hnone | ⟨c, hchild, h⟩⟩ := look_cons_notFound h
      · rw [List.cons_append, inFolder_cons hx, hnone]
      · rw [List.cons_append, inFolder_cons hx, hchild]
        simp only [ih h]
        rfl

/--
What is found after a change in a folder, where the change gives one name another child and leaves all
others.
-/
theorem look_inFolder (child : Option Node)
    (hf : ∀ es es', f name es = .ok es' → ∀ other,
      child? other es' = if other = name then child else child? other es)
    (h : inFolder f n (p ++ [name]) = .ok n') :
    look n' (p ++ [name]) = found child ∧ ∀ q, ¬ (p ++ [name]) <+: q → look n' q = look n q := by
  induction p generalizing n n' with
  | nil =>
      obtain ⟨es, es', rfl, hname, hes, rfl⟩ := inFolder_single_ok h
      constructor
      · rw [List.nil_append, look_folder hname, hf es es' hes, if_pos rfl]
        cases child <;> rfl
      · intro q hq
        cases q with
        | nil => rfl
        | cons x q =>
            have hx : x ≠ name := by
              rintro rfl
              exact hq ⟨q, rfl⟩
            exact look_congr (by rw [hf es es' hes, if_neg hx]) q
  | cons x p ih =>
      obtain ⟨es, c, c', rfl, hx, hchild, hc, rfl⟩ := inFolder_cons_ok h
      obtain ⟨hhere, helse⟩ := ih hc
      constructor
      · rw [List.cons_append, look_folder hx, child?_setEntry, if_pos rfl]
        exact hhere
      · intro q hq
        cases q with
        | nil => rfl
        | cons z q =>
            by_cases hz : z = x
            · subst hz
              rw [look_folder hx, look_folder hx, child?_setEntry, if_pos rfl, hchild]
              apply helse
              rintro ⟨rest, rfl⟩
              exact hq ⟨rest, rfl⟩
            · exact look_congr (by rw [child?_setEntry, if_neg hz]) q

/-! ## Writing and removing -/

variable {b : Bytes}

theorem look_write (h : write n (p ++ [name]) b = .ok n') :
    look n' (p ++ [name]) = .ok (.file b) ∧ ∀ q, ¬ (p ++ [name]) <+: q → look n' q = look n q := by
  refine look_inFolder (some (.file b)) ?_ h
  intro es es' hes other
  split at hes
  · cases hes
  · cases hes
    exact child?_setEntry name other (.file b) es

theorem look_remove (h : remove n (p ++ [name]) = .ok n') :
    look n' (p ++ [name]) = .error .notFound ∧ ∀ q, ¬ (p ++ [name]) <+: q → look n' q = look n q := by
  refine look_inFolder none ?_ h
  intro es es' hes other
  split at hes
  · cases hes
    exact child?_dropEntry name other es
  · cases hes
  · cases hes

/-- A file is written into a folder where no folder has its name. -/
theorem write_ok (b : Bytes) (hfolder : look n p = .ok .folder) (hname : Short name)
    (hfree : look n (p ++ [name]) ≠ .ok .folder) : ∃ n', write n (p ++ [name]) b = .ok n' := by
  obtain ⟨es, hat⟩ := at?_of_look hfolder
  rw [look_entry hat hname] at hfree
  apply inFolder_ok hat hname
  cases hchild : child? name es with
  | none => exact ⟨_, rfl⟩
  | some m =>
      cases m with
      | file c => exact ⟨_, rfl⟩
      | folder fs =>
          rw [hchild] at hfree
          exact absurd rfl hfree

theorem folder_of_file (h : look n (p ++ [name]) = .ok (.file b)) : look n p = .ok .folder ∧ Short name := by
  rcases look_above (.inl ⟨_, h⟩) with habove | habove
  · exact habove
  · cases h.symm.trans (look_of_notFound habove [name])

theorem remove_ok (h : look n (p ++ [name]) = .ok (.file b)) : ∃ n', remove n (p ++ [name]) = .ok n' := by
  obtain ⟨hfolder, hname⟩ := folder_of_file h
  obtain ⟨es, hat⟩ := at?_of_look hfolder
  rw [look_entry hat hname] at h
  apply inFolder_ok hat hname
  cases hchild : child? name es with
  | none =>
      rw [hchild] at h
      cases h
  | some m =>
      cases m with
      | file c => exact ⟨_, rfl⟩
      | folder fs =>
          rw [hchild] at h
          cases h

/-- What is not there is not removed. -/
theorem remove_of_notFound (h : look n (p ++ [name]) = .error .notFound) :
    remove n (p ++ [name]) = .error .notFound := by
  rcases look_above (.inr h) with ⟨hfolder, hname⟩ | habove
  · obtain ⟨es, hat⟩ := at?_of_look hfolder
    rw [look_entry hat hname] at h
    apply inFolder_error hat hname
    cases hchild : child? name es with
    | none => rfl
    | some m =>
        rw [hchild] at h
        cases h
  · exact inFolder_of_notFound habove

/-! ## Folders -/

/-- Making folders changes nothing where anything is found, and puts nothing beside its path. -/
theorem look_makeFolders (hq : look n q = .error .notFound → ¬ q <+: p ∧ ∀ x ∈ q, Short x) :
    look (makeFolders n p).2 q = look n q := by
  induction p generalizing n q with
  | nil => cases n <;> rfl
  | cons x p ih =>
      cases n with
      | file b => rfl
      | folder es =>
          rw [makeFolders]
          split
          · rfl
          · next hlong =>
            have hx : Short x := Nat.le_of_not_lt hlong
            cases q with
            | nil => rfl
            | cons z q =>
                by_cases hz : z = x
                · subst hz
                  have hbelow : look (.folder es) (z :: q) = .error .notFound →
                      ¬ q <+: p ∧ ∀ x ∈ q, Short x := by
                    intro h
                    obtain ⟨hstart, hshort⟩ := hq h
                    refine ⟨?_, fun x hx => hshort x (List.mem_cons_of_mem _ hx)⟩
                    rintro ⟨rest, rfl⟩
                    exact hstart ⟨rest, rfl⟩
                  rw [look_folder hx] at hbelow
                  rw [look_folder hx, look_folder hx, child?_setEntry, if_pos rfl]
                  cases hchild : child? z es with
                  | some c =>
                      rw [hchild] at hbelow
                      exact ih hbelow
                  | none =>
                      -- the folder is new, and the path leads to a place in it that stays free
                      rw [hchild] at hbelow
                      obtain ⟨hstart, hshort⟩ := hbelow rfl
                      have hempty : look (.folder []) q = .error .notFound := by
                        cases q with
                        | nil => exact absurd List.nil_prefix hstart
                        | cons y q => rw [look_folder (hshort y List.mem_cons_self)]; rfl
                      exact (ih fun _ => ⟨hstart, hshort⟩).trans hempty
                · exact look_congr (by rw [child?_setEntry, if_neg hz]) q

/-- A folder is made where one can be, and then it is there. -/
theorem makeFolders_ok (h : look n p = .ok .folder ∨ look n p = .error .notFound) (hshort : ∀ x ∈ p, Short x) :
    (makeFolders n p).1 = .ok () ∧ look (makeFolders n p).2 p = .ok .folder := by
  induction p generalizing n with
  | nil =>
      cases n with
      | file b => simp [look_nil, Node.entry] at h
      | folder es => exact ⟨rfl, rfl⟩
  | cons x p ih =>
      cases n with
      | file b => simp [look_file] at h
      | folder es =>
          have hx := hshort x List.mem_cons_self
          rw [look_folder hx] at h
          have hbelow : look ((child? x es).getD (.folder [])) p = .ok .folder ∨
              look ((child? x es).getD (.folder [])) p = .error .notFound := by
            cases hchild : child? x es with
            | some m =>
                rw [hchild] at h
                exact h
            | none =>
                cases p with
                | nil => exact .inl rfl
                | cons y p =>
                    rw [Option.getD_none, look_folder (hshort y (by simp))]
                    exact .inr rfl
          obtain ⟨hok, hthere⟩ := ih hbelow fun y hy => hshort y (List.mem_cons_of_mem _ hy)
          rw [makeFolders, if_neg (Nat.not_lt.2 hx)]
          refine ⟨hok, ?_⟩
          rw [look_folder hx, child?_setEntry, if_pos rfl]
          exact hthere

/-- No folder is made in a folder under a name that is too long. -/
theorem makeFolders_long (h : look n p = .ok .folder) (hname : ¬ Short name) :
    (makeFolders n (p ++ [name])).1 = .error .nameTooLong := by
  induction p generalizing n with
  | nil =>
      cases n with
      | file b => cases h
      | folder es => rw [List.nil_append, makeFolders, if_pos (Nat.lt_of_not_le hname)]
  | cons x p ih =>
      obtain ⟨es, c, rfl, hx, hchild, h⟩ := look_cons h
      rw [List.cons_append, makeFolders, if_neg (Nat.not_lt.2 hx), hchild]
      exact ih h

/-- Folders that were made have names that are not too long. -/
theorem short_of_makeFolders (h : (makeFolders n p).1 = .ok ()) : ∀ x ∈ p, Short x := by
  induction p generalizing n with
  | nil => simp
  | cons x p ih =>
      cases n with
      | file b => cases h
      | folder es =>
          rw [makeFolders] at h
          split at h
          · cases h
          · next hx => exact List.forall_mem_cons.2 ⟨Nat.not_lt.1 hx, ih h⟩

/-! ## Copies and new names -/

theorem copy_eq {target : Path} (h : look n p = .ok (.file b)) : copy n p target = write n target b := by
  obtain ⟨m, hat, hm⟩ := map_eq_ok.1 h
  cases m with
  | folder es => cases hm
  | file c =>
      cases hm
      rw [copy, hat]
      rfl

theorem copy_folder {target : Path} (h : look n p = .ok .folder) : copy n p target = .error .notRegular := by
  obtain ⟨es, hat⟩ := at?_of_look h
  rw [copy, hat]
  rfl

variable {source target : String}

theorem rename_eq_ok (h : look n (p ++ [source]) = .ok (.file b)) :
    rename n (p ++ [source]) (p ++ [target]) = .ok n' ↔
      ∃ m, write n (p ++ [target]) b = .ok m ∧ remove m (p ++ [source]) = .ok n' := by
  have hread : read n (p ++ [source]) = .ok b := by rw [read_eq, h]
  rw [rename, hread]
  exact bind_eq_ok (x := write n (p ++ [target]) b)

theorem not_prefix_sibling (p : Path) {name other : String} (h : name ≠ other) :
    ¬ (p ++ [name]) <+: p ++ [other] := by
  rw [List.prefix_append_right_inj]
  rintro ⟨rest, hrest⟩
  exact h (List.cons.inj hrest).1

/-- A file is given another name of its folder where no folder has that name. -/
theorem rename_ok (h : look n (p ++ [source]) = .ok (.file b)) (hne : source ≠ target) (htarget : Short target)
    (hfree : look n (p ++ [target]) ≠ .ok .folder) :
    ∃ n', rename n (p ++ [source]) (p ++ [target]) = .ok n' := by
  obtain ⟨m, hm⟩ := write_ok b (folder_of_file h).1 htarget hfree
  have hsource : look m (p ++ [source]) = .ok (.file b) := by
    rw [(look_write hm).2 _ (not_prefix_sibling p (Ne.symm hne))]
    exact h
  obtain ⟨n', hn'⟩ := remove_ok hsource
  exact ⟨n', (rename_eq_ok h).2 ⟨m, hm, hn'⟩⟩

/-- After that, the file is found under its new name only. -/
theorem look_rename (h : look n (p ++ [source]) = .ok (.file b)) (hne : source ≠ target)
    (hrename : rename n (p ++ [source]) (p ++ [target]) = .ok n') :
    look n' (p ++ [target]) = .ok (.file b) ∧ look n' (p ++ [source]) = .error .notFound ∧
      ∀ q, ¬ (p ++ [source]) <+: q → ¬ (p ++ [target]) <+: q → look n' q = look n q := by
  obtain ⟨m, hm, hremove⟩ := (rename_eq_ok h).1 hrename
  obtain ⟨hwritten, hkept⟩ := look_write hm
  obtain ⟨hgone, hkept'⟩ := look_remove hremove
  refine ⟨?_, hgone, ?_⟩
  · rw [hkept' _ (not_prefix_sibling p hne)]
    exact hwritten
  · intro q hsource htarget
    rw [hkept' q hsource, hkept q htarget]

end

/-! ## Texts of paths -/

theorem names_slash (s r : String) : names (s ++ "/" ++ r) = names s ++ names r := by
  have hlist : (s ++ "/" ++ r).toList = s.toList ++ '/' :: r.toList := by simp
  rw [names, hlist, List.splitOn_append_cons_self, List.map_append, List.filter_append]
  rfl

/-- The text is one name of a path. -/
structure IsName (s : String) : Prop where
  slash : '/' ∉ s.toList
  nonempty : s ≠ ""
  point : s ≠ "."
  points : s ≠ ".."

theorem names_name {s : String} (h : IsName s) : names s = [s] := by
  rw [names, List.splitOn_eq_singleton h.slash, List.map_singleton, String.ofList_toList,
    List.filter_cons_of_pos (by simp [h.nonempty, h.point])]
  rfl

theorem names_empty : names "" = [] := by decide

theorem climb_name {s : String} (h : IsName s) (p : Path) : climb (p ++ [s]) = climb p ++ [s] := by
  rw [climb, List.foldl_append]
  exact if_neg h.points

/-- The text from which the names of a path are taken. -/
def fullText (cwd s : String) : String := if s.startsWith "/" then s else cwd ++ "/" ++ s

theorem fullText_append {cwd s : String} (hs : s ≠ "") (r : String) :
    fullText cwd (s ++ r) = fullText cwd s ++ r := by
  have hstart : (s ++ r).startsWith "/" = s.startsWith "/" := by
    rw [Bool.eq_iff_iff, String.startsWith_string_iff, String.startsWith_string_iff, String.toList_append]
    cases hcs : s.toList with
    | nil => exact absurd (String.toList_eq_nil_iff.1 hcs) hs
    | cons c cs => simp
  rw [fullText, fullText, hstart]
  split
  · rfl
  · simp only [String.append_assoc]

/-- A slash at the end is kept. -/
theorem fullText_of_endsWith (cwd : String) {folder : String} (h : folder.endsWith "/" = true) :
    ∃ before, fullText cwd folder = before ++ "/" := by
  rw [← String.endsWith_toSlice, String.Slice.endsWith_string_iff, String.copy_toSlice] at h
  obtain ⟨r, hr⟩ := h
  have hfolder : folder = String.ofList r ++ "/" := by
    rw [← String.toList_inj, ← hr, String.toList_append, String.toList_ofList, String.toList_ofList]
  rw [fullText, hfolder]
  split
  · exact ⟨_, rfl⟩
  · exact ⟨cwd ++ "/" ++ String.ofList r, by simp only [String.append_assoc]⟩

/-- A name that is joined to a folder comes after the names of the folder, with one slash or two. -/
theorem names_join (cwd folder : String) {name : String} (h : IsName name) :
    names (fullText cwd (join folder name)) = names (fullText cwd folder) ++ [name] := by
  have hname : name.startsWith "/" = false := by
    rw [Bool.eq_false_iff, ne_eq, String.startsWith_string_iff]
    rintro ⟨rest, hrest⟩
    exact h.slash (hrest ▸ List.mem_cons_self)
  rw [join, if_neg (by simp [hname])]
  split
  · next hempty =>
    subst hempty
    have hcwd : fullText cwd "" = cwd ++ "/" ++ "" := rfl
    rw [hcwd, names_slash, names_empty, List.append_nil, fullText, if_neg (by simp [hname]), names_slash,
      names_name h]
  split
  · next hempty hend =>
    -- the slash is there, and nothing comes after it in the text of the folder
    obtain ⟨before, hbefore⟩ := fullText_of_endsWith cwd hend
    have hslash : before ++ "/" = before ++ "/" ++ "" := (String.append_empty).symm
    rw [fullText_append hempty, hbefore, names_slash, names_name h, hslash, names_slash, names_empty,
      List.append_nil]
  · next hempty _ =>
    rw [String.append_assoc, fullText_append hempty, ← String.append_assoc, names_slash, names_name h]

/-- The path of a name in a folder is the path of the folder with that name at its end. -/
theorem path_join (cwd folder : String) {name : String} (h : IsName name) :
    path cwd (join folder name) = path cwd folder ++ [name] := by
  rw [path, path]
  exact (congrArg climb (names_join cwd folder h)).trans (climb_name h _)

end Harvesting.Disk
