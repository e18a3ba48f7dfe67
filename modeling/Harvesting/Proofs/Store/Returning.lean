import Harvesting.Proofs.Progress.Checkpoint
import Harvesting.Proofs.Store.Archive
import Harvesting.Proofs.Time.Accepted
import Harvesting.Settings.Load

/-!
# Checkpoints that come back

The bounds of windows are datestamps that were accepted, whether they are set or were stored. A checkpoint
with such bounds comes back as it was stored if their years have four digits. If not, the store on disk
takes it and cannot understand it afterwards.

* `Window.Accepted`, `Window.FourDigits` — the same for both bounds;
* `HarvestSettings.accepted_of_load`, `Checkpoint.accepted_of_ofDocument` — where windows come from;
* `Checkpoint.ofDocument_accepted` — what the document of a checkpoint is read as;
* `Checkpoint.loads_back_iff` — the checkpoints that come back;
* `Checkpoint.not_loaded_back` — one that does not.
-/

namespace Harvesting

/-! ## Where bounds come from -/

/-- The bounds are what datestamps name. -/
def Window.Accepted (w : Window) : Prop :=
  (∀ t ∈ w.lower, Datestamp.Accepted t) ∧ ∀ t ∈ w.upper, Datestamp.Accepted t

/-- The bounds lie in years of four digits. -/
def Window.FourDigits (w : Window) : Prop := (∀ t ∈ w.lower, t.FourDigits) ∧ ∀ t ∈ w.upper, t.FourDigits

namespace Tree

variable {d : Dialect} {o : Option Instant}

theorem accepted_of_bound {tree : Tree} (h : bound d tree = .ok o) : ∀ t ∈ o, Datestamp.Accepted t := by
  intro t ht
  obtain ⟨raw?, -, h⟩ := bind_eq_ok.1 h
  cases raw? with
  | none =>
      cases h
      cases ht
  | some raw =>
      simp only at h
      split at h
      · cases h
        cases ht
      · cases hparse : Datestamp.parse raw with
        | ok t' =>
            rw [hparse] at h
            cases h
            cases ht
            exact ⟨raw, hparse⟩
        | error f =>
            rw [hparse] at h
            cases h

theorem accepted_of_get {ms : Members} {name : String} (h : ms.get name none (bound d) = .ok o) :
    ∀ t ∈ o, Datestamp.Accepted t := by
  rw [Members.get] at h
  split at h
  · exact accepted_of_bound h
  · cases h
    intro t ht
    cases ht

end Tree

theorem SourceSettings.accepted_of_ofTree {d : Tree.Dialect} {tree : Tree} {s : SourceSettings}
    (h : ofTree d tree = .ok s) : s.window.Accepted := by
  -- the bounds are read as the fifth and the sixth member
  simp only [ofTree, bind_eq_ok] at h
  obtain ⟨_, -, _, -, _, -, _, -, _, -, lower, hlower, upper, hupper, _, -, _, -, _, -, _, -, _, -, _, -, _, -,
    _, -, _, -, h⟩ := h
  cases h
  exact ⟨Tree.accepted_of_get hlower, Tree.accepted_of_get hupper⟩

theorem SourceSettings.accepted_of_boundOr {e : Environment} {name : String} {o o' : Option Instant}
    (ho : ∀ t ∈ o, Datestamp.Accepted t) (h : boundOr e name o = .ok o') :
    ∀ t ∈ o', Datestamp.Accepted t := by
  rw [boundOr] at h
  split at h
  · next raw _ =>
    obtain ⟨t', hparse, rfl⟩ := map_eq_ok.1 h
    rintro t ⟨⟩
    exact ⟨raw, hparse⟩
  · cases h
    exact ho

theorem SourceSettings.accepted_of_withEnvironment {s s' : SourceSettings} {e : Environment}
    (hs : s.window.Accepted) (h : s.withEnvironment e = .ok s') : s'.window.Accepted := by
  obtain ⟨lower, hlower, h⟩ := bind_eq_ok.1 h
  obtain ⟨upper, hupper, h⟩ := bind_eq_ok.1 h
  cases h
  exact ⟨accepted_of_boundOr hs.1 hlower, accepted_of_boundOr hs.2 hupper⟩

theorem Tree.of_mem_items {α : Type} {d : Dialect} {reader : Tree → Except Mismatch α} {tree : Tree} {as : List α}
    (h : items d reader tree = .ok as) : ∀ a ∈ as, ∃ t, reader t = .ok a := by
  have hgo (i : Nat) (ts : List Tree) (as : List α) (h : items.go reader i ts = .ok as) :
      ∀ a ∈ as, ∃ t, reader t = .ok a := by
    induction ts generalizing i as with
    | nil =>
        cases h
        exact nofun
    | cons t ts ih =>
        obtain ⟨a, ha, h⟩ := bind_eq_ok.1 h
        obtain ⟨rest, hrest, h⟩ := bind_eq_ok.1 h
        cases h
        rintro b (_ | ⟨_, hb⟩)
        · exact ⟨t, mapError_eq_ok.1 ha⟩
        · exact ih (i + 1) rest hrest b hb
  rw [items.eq_def] at h
  split at h
  · exact hgo 0 _ as h
  · cases h

namespace HarvestSettings

theorem accepted_of_ofTree {tree : Tree} {s : HarvestSettings} (h : ofTree tree = .ok s) :
    ∀ source ∈ s.sources, source.window.Accepted := by
  obtain ⟨ms, -, h⟩ := bind_eq_ok.1 h
  obtain ⟨sources, hsources, h⟩ := bind_eq_ok.1 h
  obtain ⟨_, -, h⟩ := bind_eq_ok.1 h
  obtain ⟨_, -, h⟩ := bind_eq_ok.1 h
  obtain ⟨_, -, h⟩ := bind_eq_ok.1 h
  cases h
  rw [Tree.Members.get] at hsources
  split at hsources
  · intro source hmem
    obtain ⟨t, ht⟩ := Tree.of_mem_items hsources source hmem
    exact SourceSettings.accepted_of_ofTree ht
  · cases hsources
    intro source hmem
    cases hmem

theorem eq_of_checked {s s' : HarvestSettings} (h : s.checked = .ok s') : s' = s := by
  obtain ⟨_, -, h⟩ := bind_eq_ok.1 h
  cases h
  rfl

/-- The windows of settings that are loaded come from datestamps. -/
theorem accepted_of_load {disk : Disk.Node} {folder : String} {e : Environment} {path : Option String}
    {s : HarvestSettings} (h : load disk folder e path = .ok s) :
    ∀ source ∈ s.sources, source.window.Accepted := by
  obtain ⟨layer, -, h⟩ := bind_eq_ok.1 h
  obtain ⟨read, hread, h⟩ := bind_eq_ok.1 h
  simp only at h
  split at h
  · -- without any source in the file, one is made from its own variables
    obtain ⟨source, hsource, h⟩ := bind_eq_ok.1 h
    obtain ⟨sources, hsources, h⟩ := bind_eq_ok.1 h
    obtain ⟨_, -, h⟩ := bind_eq_ok.1 h
    cases hsources
    rw [eq_of_checked h]
    have hdefault : SourceSettings.default.window.Accepted := ⟨nofun, nofun⟩
    rintro _ (_ | ⟨_, ⟨⟩⟩)
    exact SourceSettings.accepted_of_withEnvironment hdefault (mapError_eq_ok.1 hsource)
  · obtain ⟨sources, hsources, h⟩ := bind_eq_ok.1 h
    obtain ⟨_, -, h⟩ := bind_eq_ok.1 h
    cases hsources
    rw [eq_of_checked h]
    rw [ofLayers] at hread
    exact accepted_of_ofTree (s := read) (mapError_eq_ok.1 hread)

end HarvestSettings

namespace Checkpoint

theorem accepted_of_ofTree {tree : Tree} {c : Checkpoint} (h : ofTree tree = .ok c) : c.window.Accepted := by
  obtain ⟨ms, -, h⟩ := bind_eq_ok.1 h
  obtain ⟨_, -, h⟩ := bind_eq_ok.1 h
  obtain ⟨lower, hlower, h⟩ := bind_eq_ok.1 h
  obtain ⟨upper, hupper, h⟩ := bind_eq_ok.1 h
  obtain ⟨_, -, h⟩ := bind_eq_ok.1 h
  obtain ⟨_, -, h⟩ := bind_eq_ok.1 h
  cases h
  exact ⟨Tree.accepted_of_get hlower, Tree.accepted_of_get hupper⟩

/-- The window of a checkpoint that is read from a document comes from datestamps. -/
theorem accepted_of_ofDocument {doc : Json} {c : Checkpoint} (h : ofDocument doc = .ok c) :
    c.window.Accepted := by
  obtain ⟨ms, -, h⟩ := bind_eq_ok.1 h
  split at h
  · exact accepted_of_ofTree h
  · cases h

/-! ## What is read again -/

theorem rereadBound_accepted {o o' : Option Instant} (h : ∀ t ∈ o, Datestamp.Accepted t) :
    rereadBound o = .ok o' ↔ (∀ t ∈ o, t.FourDigits) ∧ o' = o := by
  cases o with
  | none => simp [rereadBound, eq_comm]
  | some t =>
      rw [rereadBound, Tree.bound_string (Tree.trim_format_ne_nil t), mapError_eq_ok, map_eq_ok,
        Datestamp.reparse_eq (h t rfl)]
      split
      · next hyear => simp [hyear, eq_comm]
      · next hyear => simp [hyear]

variable {c : Checkpoint}

/-- A checkpoint with accepted bounds comes back as it was, or not at all. -/
theorem ofDocument_accepted {c' : Checkpoint} (hbounds : c.window.Accepted) (hstatus : Storable c.status) :
    ofDocument c.toDocument = .ok c' ↔ c.window.FourDigits ∧ c' = c := by
  rw [ofDocument_toDocument_eq_ok, rereadBound_accepted (o := c.lower) hbounds.1,
    rereadBound_accepted (o := c.upper) hbounds.2, signed32_eq_ok]
  constructor
  · rintro ⟨htoken, ⟨hlower, hl⟩, ⟨hupper, hu⟩, herror, -, hs⟩
    refine ⟨⟨hlower, hupper⟩, ?_⟩
    obtain ⟨token, lower, upper, error, status⟩ := c'
    cases htoken
    cases hl
    cases hu
    cases herror
    cases hs
    rfl
  · rintro ⟨⟨hlower, hupper⟩, rfl⟩
    exact ⟨rfl, ⟨hlower, rfl⟩, ⟨hupper, rfl⟩, rfl, hstatus, rfl⟩

theorem exists_fault_of_ofDocument (hbounds : c.window.Accepted) (hstatus : Storable c.status)
    (hyears : ¬ c.window.FourDigits) : ∃ m, ofDocument c.toDocument = .error m := by
  cases hread : ofDocument c.toDocument with
  | ok c' => exact absurd ((ofDocument_accepted hbounds hstatus).1 hread).1 hyears
  | error m => exact ⟨m, rfl⟩

end Checkpoint

/-! ## What the stores do with it -/

/-- Where it can be stored, a checkpoint is saved; what is loaded then is its document, if it is understood. -/
theorem Archive.load_saved {a : Archive} {key : String} {c : Checkpoint} (hready : a.Ready key .checkpoint)
    (hstatus : Checkpoint.Storable c.status) :
    ∃ a', Store.save a key c = (.ok (), a') ∧ (Store.load a' key).1 =
      (Store.understood key .checkpoint (Checkpoint.ofDocument c.toDocument)).map some := by
  obtain ⟨a', hsave, hchanges⟩ := put_ready hready c.toDocument
  refine ⟨a', hsave, ?_⟩
  rw [Store.load, get_eq hready.valid, hchanges.current, answer,
    parse_pretty _ (Checkpoint.plain_toDocument hstatus)]
  rfl

namespace Checkpoint

/--
Accepted datestamps have no fraction of a second and are read as they are written if their years have four
digits; settings and documents have no other bounds. A checkpoint with such bounds is saved, and it comes
back as it was if their years have four digits, and otherwise not at all.
-/
theorem loads_back_iff {a : Archive} {key : String} {c : Checkpoint} (hready : a.Ready key .checkpoint)
    (hbounds : c.window.Accepted) (hstatus : Storable c.status) :
    (∀ raw t, Datestamp.parse raw = .ok t → t.nanos % Instant.nanosPerSec = 0 ∧
      (Datestamp.parse (Datestamp.format t) = .ok t ↔ t.FourDigits)) ∧
    (∀ disk folder e path s, HarvestSettings.load disk folder e path = .ok s →
      ∀ source ∈ s.sources, source.window.Accepted) ∧
    (∀ doc c', ofDocument doc = .ok c' → c'.window.Accepted) ∧
    ∃ a', Store.save a key c = (.ok (), a') ∧
      ((Store.load a' key).1 = .ok (some c) ↔ c.window.FourDigits) ∧
      (¬ c.window.FourDigits → ∃ reason,
        (Store.load a' key).1 = .error (.corrupt (Store.documentId key .checkpoint) reason)) := by
  refine ⟨?_, ?_, ?_, ?_⟩
  · intro raw t hparse
    have haccepted : Datestamp.Accepted t := ⟨raw, hparse⟩
    exact ⟨haccepted.settled.whole, Datestamp.parse_reparse_iff haccepted⟩
  · intro disk folder e path s hload
    exact HarvestSettings.accepted_of_load hload
  · intro doc c' hread
    exact accepted_of_ofDocument hread
  · obtain ⟨a', hsave, hload⟩ := Archive.load_saved hready hstatus
    refine ⟨a', hsave, ?_⟩
    rw [hload]
    by_cases hyears : c.window.FourDigits
    · rw [(ofDocument_accepted hbounds hstatus).2 ⟨hyears, rfl⟩]
      exact ⟨iff_of_true rfl hyears, fun hnot => absurd hyears hnot⟩
    · obtain ⟨m, hm⟩ := exists_fault_of_ofDocument hbounds hstatus hyears
      rw [hm]
      exact ⟨iff_of_false nofun hyears, fun _ => ⟨m.message, rfl⟩⟩

/-- A checkpoint of a harvest from an instant on. -/
def since (t : Instant) : Checkpoint := ⟨none, some t, none, none, okStatus⟩

theorem storable_since (t : Instant) : Storable (since t).status := by
  show Storable okStatus
  exact ⟨by decide, by decide⟩

theorem accepted_since {t : Instant} (h : Datestamp.Accepted t) : (since t).window.Accepted := by
  refine ⟨?_, nofun⟩
  rintro _ ⟨⟩
  exact h

/-- The leap second at the end of 2016, in the time of another place and with a fraction. -/
def leapSecond : Instant := ⟨1483228799, Instant.nanosPerSec⟩

theorem parse_leapSecond : Datestamp.parse "2017-01-01T05:44:60.75+05:45" = .ok leapSecond := by decide +kernel

theorem loads_back_leapSecond :
    Archive.blank.Ready "src" .checkpoint ∧ (since leapSecond).window.Accepted ∧
    Storable (since leapSecond).status ∧ leapSecond.nanos % Instant.nanosPerSec = 0 ∧
    Datestamp.parse (Datestamp.format leapSecond) = .ok leapSecond ∧
    ∃ a', Store.save Archive.blank "src" (since leapSecond) = (.ok (), a') ∧
      (Store.load a' "src").1 = .ok (some (since leapSecond)) := by
  have hready : Archive.blank.Ready "src" .checkpoint :=
    Archive.blank_empty.ready (by decide) (by decide)
  have hbounds : (since leapSecond).window.Accepted := accepted_since ⟨_, parse_leapSecond⟩
  have hstatus : Storable (since leapSecond).status := storable_since leapSecond
  have hyear : leapSecond.FourDigits := by decide +kernel
  have hyears : (since leapSecond).window.FourDigits := by
    refine ⟨?_, nofun⟩
    rintro _ ⟨⟩
    exact hyear
  obtain ⟨hparse, -, -, a', hsave, hload, -⟩ := loads_back_iff hready hbounds hstatus
  obtain ⟨hwhole, hreparse⟩ := hparse _ _ parse_leapSecond
  exact ⟨hready, hbounds, hstatus, hwhole, hreparse.2 hyear, a', hsave, hload.2 hyears⟩

/-- The first day of the year 12345. -/
def farDay : Instant := ⟨327403382400, 0⟩

/-- A day of a year with five digits is accepted, and the checkpoint that has it is saved and then corrupt. -/
theorem not_loaded_back :
    Datestamp.parse "+12345-01-01" = .ok farDay ∧
    Datestamp.parse (Datestamp.format farDay) = .error ⟨"+12345-01-01T00:00:00Z"⟩ ∧
    (since farDay).window.Accepted ∧
    ∃ a' reason, Store.save Archive.blank "src" (since farDay) = (.ok (), a') ∧
      (Store.load a' "src").1 = .error (.corrupt "src/_last" reason) := by
  have hparse : Datestamp.parse "+12345-01-01" = .ok farDay := by decide +kernel
  have hbounds : (since farDay).window.Accepted := accepted_since ⟨_, hparse⟩
  have hready : Archive.blank.Ready "src" .checkpoint :=
    Archive.blank_empty.ready (by decide) (by decide)
  have hyears : ¬ (since farDay).window.FourDigits := by
    intro h
    exact absurd (h.1 farDay rfl) (by decide +kernel)
  obtain ⟨m, hm⟩ := exists_fault_of_ofDocument hbounds (storable_since farDay) hyears
  obtain ⟨a', hsave, hload⟩ := Archive.load_saved hready (storable_since farDay)
  refine ⟨hparse, by decide +kernel, hbounds, a', m.message, hsave, ?_⟩
  rw [hload, hm]
  rfl

end Checkpoint

end Harvesting
