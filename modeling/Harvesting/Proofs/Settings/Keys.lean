import Harvesting.Command.Deployment
import Harvesting.Proofs.Except
import Harvesting.Settings.Harvest

/-!
# The keys of accepted settings

Settings that can be used name every source by a key, no two of them by the same one, and so do the
deployments that are made of them.

* `SourceSettings.valid_of_check` — the key of a source that can be used is one;
* `HarvestSettings.keys_of_check` — the keys of all sources are keys, each of them once;
* `Deployment.keys_of_all` — the same of the sources that are run.
-/

namespace Harvesting

theorem SourceSettings.valid_of_check {s : SourceSettings} (h : s.check = .ok ()) :
    Key.isValid s.key = true := by
  by_cases hvalid : Key.isValid s.key = true
  · exact hvalid
  · rw [check, if_pos hvalid] at h
    cases h

namespace HarvestSettings

theorem checkSources_cons {seen : List String} {s : SourceSettings} {r : List SourceSettings}
    (h : checkSources seen (s :: r) = .ok ()) :
    s.check = .ok () ∧ s.key ∉ seen ∧ checkSources (s.key :: seen) r = .ok () := by
  rw [checkSources] at h
  obtain ⟨⟨⟩, hcheck, h⟩ := bind_eq_ok.1 h
  by_cases hseen : seen.contains s.key = true
  · rw [if_pos hseen] at h
    cases h
  · rw [if_neg hseen] at h
    refine ⟨hcheck, ?_, h⟩
    simpa using hseen

/-- Every key is one, no key comes twice, and none was seen before. -/
theorem keys_of_checkSources {seen : List String} {sources : List SourceSettings}
    (h : checkSources seen sources = .ok ()) :
    (∀ s ∈ sources, Key.isValid s.key = true ∧ s.key ∉ seen) ∧ (sources.map (·.key)).Nodup := by
  induction sources generalizing seen with
  | nil => exact ⟨by simp, List.nodup_nil⟩
  | cons s r ih =>
      obtain ⟨hcheck, hseen, hrest⟩ := checkSources_cons h
      obtain ⟨hvalid, hnodup⟩ := ih hrest
      refine ⟨?_, ?_⟩
      · intro t ht
        rcases List.mem_cons.1 ht with rfl | ht
        · exact ⟨SourceSettings.valid_of_check hcheck, hseen⟩
        · obtain ⟨hkey, hnot⟩ := hvalid t ht
          exact ⟨hkey, fun hmem => hnot (List.mem_cons_of_mem _ hmem)⟩
      · rw [List.map_cons, List.nodup_cons]
        refine ⟨?_, hnodup⟩
        intro hmem
        obtain ⟨t, ht, hkey⟩ := List.mem_map.1 hmem
        exact (hvalid t ht).2 (hkey ▸ List.mem_cons_self)

theorem keys_of_check {s : HarvestSettings} (h : s.check = .ok ()) :
    (∀ t ∈ s.sources, Key.isValid t.key = true) ∧ (s.sources.map (·.key)).Nodup := by
  rw [check] at h
  obtain ⟨⟨⟩, hsources, -⟩ := bind_eq_ok.1 h
  obtain ⟨hvalid, hnodup⟩ := keys_of_checkSources hsources
  exact ⟨fun t ht => (hvalid t ht).1, hnodup⟩

theorem select_sublist {s : HarvestSettings} {name : Option String} {sources : List SourceSettings}
    (h : s.select name = .ok sources) : sources.Sublist s.sources := by
  cases name with
  | none =>
      cases h
      exact List.Sublist.refl _
  | some name =>
      rw [select] at h
      split at h
      · cases h
      · cases h
        exact List.filter_sublist

end HarvestSettings

namespace Deployment

theorem key_of_of {sink : SinkSettings} {o : RunOptions} {processors : Nat} {s : SourceSettings}
    {d : Deployment} (h : of sink o processors s = .ok d) : d.runner.cycle.key = s.key := by
  rw [of] at h
  obtain ⟨trigger, -, h⟩ := bind_eq_ok.1 h
  obtain ⟨client, -, h⟩ := bind_eq_ok.1 h
  obtain ⟨outlet, -, h⟩ := bind_eq_ok.1 h
  cases h
  rfl

theorem keys_of_mapM {sink : SinkSettings} {o : RunOptions} {processors : Nat} {sources : List SourceSettings}
    {ds : List Deployment} (h : sources.mapM (of sink o processors) = .ok ds) :
    ds.map (·.runner.cycle.key) = sources.map (·.key) := by
  induction sources generalizing ds with
  | nil =>
      cases h
      rfl
  | cons s r ih =>
      rw [List.mapM_cons] at h
      obtain ⟨d, hd, h⟩ := bind_eq_ok.1 h
      obtain ⟨rest, hrest, h⟩ := bind_eq_ok.1 h
      cases h
      rw [List.map_cons, List.map_cons, key_of_of hd, ih hrest]

/-- The sources that are run are named by keys, no two of them by the same one. -/
theorem keys_of_all {s : HarvestSettings} {name : Option String} {o : RunOptions} {processors : Nat}
    {ds : List Deployment} (hcheck : s.check = .ok ()) (h : all s name o processors = .ok ds) :
    (ds.map (·.runner.cycle.key)).Nodup ∧
      ∀ d ∈ ds, Key.isValid d.runner.cycle.key = true := by
  obtain ⟨hvalid, hnodup⟩ := HarvestSettings.keys_of_check hcheck
  rw [all] at h
  obtain ⟨sources, hselect, hmap⟩ := bind_eq_ok.1 h
  have hsublist := HarvestSettings.select_sublist (mapError_eq_ok.1 hselect)
  have hkeys := keys_of_mapM hmap
  refine ⟨?_, ?_⟩
  · rw [hkeys]
    exact hnodup.sublist (hsublist.map _)
  · intro d hd
    have hmem : d.runner.cycle.key ∈ sources.map (·.key) := by
      rw [← hkeys]
      exact List.mem_map_of_mem hd
    obtain ⟨t, ht, hkey⟩ := List.mem_map.1 hmem
    exact hkey ▸ hvalid t (hsublist.subset ht)

end Deployment

end Harvesting
