/-
# What a check leaves for the start

A configuration is accepted if its patterns and filters can be read (`Config.check_eq_ok_iff`).
Two things are asked only when the plan is made: whether the format can be written, and whether
the subdirectory of a repository stays inside the export (`Origin.escape?`). An entry for which
the answer is yes has a source (`Source.exists_ofEntry`), and so there is a plan for the
configuration. Where the answer is no, the first such entry is the failure, after the format
(`Runner.ofConfig_of_ofText`).
-/

import ClusterSync.Main
import ClusterSync.Proofs.Config.Documents

namespace ClusterSync

/-! ### Sound configurations -/

/-- **What a check asks for**: a source at all, and patterns and filters that can be read. -/
theorem Config.check_eq_ok_iff {c : Config} : c.check = .ok () ↔
    c.sources ≠ [] ∧ (∃ p, c.protection = .ok p) ∧ ∀ e ∈ c.sources, e.origin.check = .ok () := by
  rw [check, ← forM_eq_ok_iff]
  cases hsources : c.sources with
  | nil => simp
  | cons e rest =>
    cases c.protection with
    | error fault => simp
    | ok p => simp

theorem Config.check_of_ofText {text : String} {c : Config} (h : ofText text = .ok c) :
    c.check = .ok () := by
  rw [ofText] at h
  cases hread : (Yaml.Document.readWhole text read).mapError ConfigFault.yaml with
  | error fault =>
    rw [hread] at h
    cases h
  | ok d =>
    rw [hread] at h
    simp only [bind, Except.bind] at h
    cases hcheck : d.check with
    | error fault =>
      rw [hcheck] at h
      cases h
    | ok _ =>
      rw [hcheck] at h
      cases h
      exact hcheck

/-! ### Entries -/

/-- The failure of a subdirectory that leads out of the export, if it does. -/
def Exported.escape? (kind path : String) : Option Failure :=
  if Files.staysBelow path then none
  else some (.source kind s!"subdirectory must be relative and stay inside the export: {path}")

/-- The failure of an origin whose subdirectory leads out of the export, if it does. -/
def Origin.escape? : Origin → Option Failure
  | .git _ path _ => Exported.escape? "git" path
  | .svn _ path => Exported.escape? "svn" path
  | _ => none

theorem Exported.ofPath_of_inside (exporter : Exporter) {path : String}
    (h : escape? exporter.kind path = none) (repo : String) :
    ofPath exporter repo path = .ok ⟨exporter, repo, path⟩ := by
  rw [escape?] at h
  rw [ofPath]
  split at h
  · next hbelow => rw [if_pos hbelow]
  · cases h

theorem Exported.ofPath_of_escape (exporter : Exporter) {path : String} {failure : Failure}
    (h : escape? exporter.kind path = some failure) (repo : String) :
    ofPath exporter repo path = .error failure := by
  rw [escape?] at h
  rw [ofPath]
  split at h
  · cases h
  · next hbelow => rw [if_neg hbelow, Option.some.inj h]

namespace Source

variable (around : Surroundings) {server : Range.Settings} {e : SourceEntry}

/-- **An entry has a source** if its filter can be read, its client can be made and its
subdirectory stays inside the export. -/
theorem exists_ofEntry (hsound : e.origin.check = .ok ())
    (hclient : e.origin = .membership → server.clientError? = none)
    (hinside : e.origin.escape? = none) : ∃ s, ofEntry around server e = .ok s := by
  obtain ⟨origin, policy, name⟩ := e
  cases origin with
  | directory path => exact ⟨_, rfl⟩
  | git repo path branch =>
    have hpath := Exported.ofPath_of_inside (.git around.clone branch) hinside repo
    simp only [ofEntry, hpath]
    exact ⟨_, rfl⟩
  | svn repo path =>
    have hpath := Exported.ofPath_of_inside
      (.svn around.program Exporter.svnProgram around.scratch) hinside repo
    simp only [ofEntry, hpath]
    exact ⟨_, rfl⟩
  | listing url filter timeout =>
    cases hfilter : Pattern.ofConfig filter with
    | error fault =>
      simp only [Origin.check, hfilter] at hsound
      cases hsound
    | ok wanted =>
      simp only [ofEntry, hfilter]
      exact ⟨_, rfl⟩
  | stamp => exact ⟨_, rfl⟩
  | membership =>
    simp only [ofEntry, Range.Settings.connect, hclient rfl]
    exact ⟨_, rfl⟩

theorem ofEntry_of_escape {failure : Failure} (h : e.origin.escape? = some failure) :
    ofEntry around server e = .error failure := by
  obtain ⟨origin, policy, name⟩ := e
  cases origin with
  | git repo path branch =>
    have hpath := Exported.ofPath_of_escape (.git around.clone branch) h repo
    simp only [ofEntry, hpath]
    rfl
  | svn repo path =>
    have hpath := Exported.ofPath_of_escape
      (.svn around.program Exporter.svnProgram around.scratch) h repo
    simp only [ofEntry, hpath]
    rfl
  | _ => cases h

end Source

/-! ### Plans -/

namespace Runner

variable {around : Surroundings} {c : Config}

/-- A sound configuration has a writer for the format `yaml`. -/
theorem exists_writer (hsound : c.check = .ok ()) (hformat : c.format = "yaml") :
    ∃ w, c.writer = .ok w := by
  obtain ⟨-, ⟨p, hp⟩, -⟩ := Config.check_eq_ok_iff.1 hsound
  have hname : Publish.Format.ofName c.format = .ok .yaml := if_pos hformat
  simp only [Config.writer, hname, hp]
  exact ⟨_, rfl⟩

theorem exists_planned {server : Range.Settings} {e : SourceEntry}
    (hsound : e.origin.check = .ok ())
    (hclient : e.origin = .membership → server.clientError? = none)
    (hinside : e.origin.escape? = none) : ∃ p, Planned.ofEntry around server e = .ok p := by
  obtain ⟨s, hs⟩ := Source.exists_ofEntry around hsound hclient hinside
  simp only [Planned.ofEntry, hs]
  exact ⟨_, rfl⟩

/-- **What is accepted has a plan, but for its format and its subdirectories.** Where one of
these is not as it has to be it is the failure: the format before all, then the first
subdirectory that leads out of its export. -/
theorem ofConfig_of_ofText {text : String} (h : Config.ofText text = .ok c)
    (around : Surroundings)
    (hclient : ∀ e ∈ c.sources, e.origin = .membership → c.server.clientError? = none) :
    (c.format = "yaml" → (∀ e ∈ c.sources, e.origin.escape? = none) →
      ∃ r, ofConfig around c = .ok r) ∧
    (c.format ≠ "yaml" → ofConfig around c = .error (.unsupportedFormat c.format)) ∧
    (c.format = "yaml" → ∀ before e after failure, c.sources = before ++ e :: after →
      (∀ x ∈ before, x.origin.escape? = none) → e.origin.escape? = some failure →
      ofConfig around c = .error failure) := by
  have hsound := Config.check_of_ofText h
  have hplanned : ∀ e ∈ c.sources, e.origin.escape? = none →
      ∃ p, Planned.ofEntry around c.server e = .ok p := fun e he hinside =>
    exists_planned ((Config.check_eq_ok_iff.1 hsound).2.2 e he) (hclient e he) hinside
  refine ⟨fun hformat hinside => ?_, fun hformat => ?_,
    fun hformat before e after failure hsources hbefore hescape => ?_⟩
  · obtain ⟨w, hw⟩ := exists_writer hsound hformat
    obtain ⟨sources, hall⟩ := exists_mapM_eq_ok fun e he => hplanned e he (hinside e he)
    simp only [ofConfig, hw, hall]
    exact ⟨_, rfl⟩
  · have hname : Publish.Format.ofName c.format = .error (.unsupportedFormat c.format) :=
      if_neg hformat
    simp only [ofConfig, Config.writer, hname]
    rfl
  · obtain ⟨w, hw⟩ := exists_writer hsound hformat
    have hfirst : Planned.ofEntry around c.server e = .error failure := by
      rw [Planned.ofEntry, Source.ofEntry_of_escape around hescape]
      rfl
    have hall : c.sources.mapM (Planned.ofEntry around c.server) = .error failure := by
      rw [hsources]
      refine mapM_eq_error_of_first (fun x hx => hplanned x ?_ (hbefore x hx)) hfirst
      rw [hsources]
      exact List.mem_append_left _ hx
    simp only [ofConfig, hw, hall]
    rfl

/-- A document that asks for a format that there is no writer for. -/
def jsonText : String := "output_dir: out\noutput_format: json\nsources:\n- type: version\n"

def jsonConfig : Config where
  directory := "out"
  format := "json"
  sources := [{ origin := .stamp }]

/-- **The format is not asked for by the check.** -/
theorem ofConfig_jsonText : Config.ofText jsonText = .ok jsonConfig ∧
    jsonConfig.server.clientError? = none ∧
      ofConfig (Main.alone 0) jsonConfig = .error (.unsupportedFormat "json") :=
  ⟨rfl, rfl, rfl⟩

/-- A configuration with entries of all types. -/
def serviceConfig : Config where
  directory := "/srv/range"
  kept := ["^version\\.yaml$"]
  range := some { host := "range:9999" }
  sources := [
    { origin := .directory "/srv/static" },
    { origin := .git "https://host/clusters.git" "range" none, policy := .override },
    { origin := .svn "svn://host/trunk" "", policy := .nomerge, name := some "legacy" },
    { origin := .listing "http://host/range/" "\\.yaml$" none },
    { origin := .stamp },
    { origin := .membership }]

theorem ofConfig_of_ofText_service :
    Config.ofText serviceConfig.text = .ok serviceConfig ∧
      ∃ r, ofConfig (Main.alone 0) serviceConfig = .ok r :=
  have hread : Config.ofText serviceConfig.text = .ok serviceConfig :=
    (Config.ofText_written serviceConfig).trans rfl
  ⟨hread, (ofConfig_of_ofText hread (Main.alone 0) (by decide)).1 rfl (by decide +kernel)⟩

end Runner

end ClusterSync
