/-
# Under which name a failure is told

An entry is called by its label. A source may fail under other names: a repository under the kind
of its exporter, a file that cannot be written under none at all. On the way out a failure gets the
label wherever it has no name yet (`Failure.named`), so what matters is that none leaves a source
under a name of its own. None does (`Source.isToldAs_read`), and so the first source that cannot be
read is named by its entry.

Making the plan has one gap. A subdirectory that leads out of its export is refused before the
source has its label, and this is told under the kind of the exporter (`Origin.name_of_escape?`). An
entry that is called otherwise is not named then (`Runner.ofConfig_names_kind`). It is the only
failure of a source that can come of making a plan (`Source.escape?_of_ofEntry`).
-/

import ClusterSync.Proofs.Run.Failing
import ClusterSync.Proofs.Run.Starting

namespace ClusterSync

/-- What stands at the same position in a list that goes with another one. -/
theorem exists_of_forall₂_append_cons {α β : Type} {R : α → β → Prop} {xs : List α}
    {ys zs : List β} {y : β} (h : List.Forall₂ R xs (ys ++ y :: zs)) :
    ∃ before x after, xs = before ++ x :: after ∧ before.length = ys.length ∧ R x y := by
  induction ys generalizing xs with
  | nil =>
    obtain ⟨x, after, hx, -, rfl⟩ := List.forall₂_cons_right_iff.1 h
    exact ⟨[], x, after, rfl, rfl, hx⟩
  | cons z ys ih =>
    obtain ⟨w, rest, -, hrest, rfl⟩ := List.forall₂_cons_right_iff.1 h
    obtain ⟨before, x, after, rfl, hlength, hx⟩ := ih hrest
    exact ⟨w :: before, x, after, rfl, congrArg (· + 1) hlength, hx⟩

/-! ### Failures under a label -/

namespace Failure

variable {e : Failure} {label : String}

/-- Is a failure told under a label, if a source of this label fails with it? -/
def IsToldAs (label : String) (e : Failure) : Prop := ∃ reason, e.named label = .source label reason

theorem isToldAs_relabelled (label : String) (e : Failure) :
    (e.relabelled label).IsToldAs label := by
  cases e <;> exact ⟨_, rfl⟩

theorem isToldAs_source (label reason : String) : (source label reason).IsToldAs label :=
  ⟨reason, rfl⟩

theorem isToldAs_io (label : String) (cause : Files.OsError) : (io cause).IsToldAs label :=
  ⟨_, rfl⟩

end Failure

namespace Listing

variable {l : Listing} {web : Web} {url : String} {e : Failure}

theorem isToldAs_fetch (h : l.fetch web url = .error e) : e.IsToldAs l.name := by
  rw [fetch] at h
  split at h
  · exact Except.error.inj h ▸ Failure.isToldAs_source ..
  · split at h
    · exact Except.error.inj h ▸ Failure.isToldAs_source ..
    · split at h
      · exact Except.error.inj h ▸ Failure.isToldAs_source ..
      · cases h

theorem isToldAs_download {dir : Files.Place} {tree : FileTree} {files : List String}
    (h : (l.download web dir tree files).1 = .error e) : e.IsToldAs l.name := by
  induction files generalizing tree with
  | nil => cases h
  | cons file rest ih =>
    rw [download] at h
    cases hfetch : l.fetch web (fileUrl l.url file) with
    | error cause =>
      simp only [hfetch] at h
      exact Except.error.inj h ▸ isToldAs_fetch hfetch
    | ok body =>
      simp only [hfetch] at h
      cases hwrite : tree.write dir file body with
      | error cause =>
        simp only [hwrite] at h
        exact Except.error.inj h ▸ Failure.isToldAs_io ..
      | ok after =>
        simp only [hwrite] at h
        exact ih h

theorem isToldAs_clusters {scratch : String} {tree : FileTree}
    (h : (l.clusters web scratch tree).1 = .error e) : e.IsToldAs l.name := by
  rw [clusters] at h
  cases hpage : l.fetch web l.url with
  | error cause =>
    simp only [hpage] at h
    exact Except.error.inj h ▸ isToldAs_fetch hpage
  | ok page =>
    simp only [hpage] at h
    split at h
    · next hdownload => exact Except.error.inj h ▸ isToldAs_download (congrArg (·.1) hdownload)
    · next after asked hdownload =>
      obtain ⟨cause, -, rfl⟩ := mapError_eq_error_iff.1 h
      exact cause.isToldAs_relabelled l.name

end Listing

/-! ### Sources of entries -/

theorem Exported.escape?_of_ofPath {exporter : Exporter} {repo path : String} {e : Failure}
    (h : ofPath exporter repo path = .error e) : escape? exporter.kind path = some e := by
  rw [ofPath] at h
  rw [escape?]
  split at h
  · cases h
  · next hbelow => rw [if_neg hbelow, Except.error.inj h]

namespace Source

variable {around : Surroundings} {server : Range.Settings} {entry : SourceEntry} {s : Source}
  {tree : FileTree} {e : Failure}

/-- **No failure leaves a source under another name** than the label of its entry. -/
theorem isToldAs_read (h : ofEntry around server entry = .ok s)
    (hread : s.read tree = .error e) : e.IsToldAs entry.label := by
  obtain ⟨origin, policy, name⟩ := entry
  cases origin with
  | directory path =>
    obtain rfl := Except.ok.inj h
    obtain ⟨cause, -, rfl⟩ := mapError_eq_error_iff.1 hread
    exact cause.isToldAs_relabelled _
  | git repo path branch =>
    obtain ⟨exported, -, h⟩ := bind_eq_ok_iff.1 h
    obtain rfl := Except.ok.inj h
    obtain ⟨cause, -, rfl⟩ := mapError_eq_error_iff.1 hread
    exact cause.isToldAs_relabelled _
  | svn repo path =>
    obtain ⟨exported, -, h⟩ := bind_eq_ok_iff.1 h
    obtain rfl := Except.ok.inj h
    obtain ⟨cause, -, rfl⟩ := mapError_eq_error_iff.1 hread
    exact cause.isToldAs_relabelled _
  | listing url filter timeout =>
    obtain ⟨wanted, -, h⟩ := bind_eq_ok_iff.1 h
    obtain rfl := Except.ok.inj h
    exact Listing.isToldAs_clusters hread
  | stamp =>
    obtain rfl := Except.ok.inj h
    cases hread
  | membership =>
    obtain ⟨asked, -, h⟩ := bind_eq_ok_iff.1 h
    obtain rfl := Except.ok.inj h
    obtain ⟨cause, -, rfl⟩ := mapError_eq_error_iff.1 hread
    exact ⟨_, rfl⟩

/-- **The only failure of a source that comes of making it** is a subdirectory that leads out of
its export. -/
theorem escape?_of_ofEntry {name reason : String}
    (h : ofEntry around server entry = .error (.source name reason)) :
    entry.origin.escape? = some (.source name reason) := by
  obtain ⟨origin, policy, called⟩ := entry
  cases origin with
  | directory path => cases h
  | git repo path branch =>
    rcases bind_eq_error_iff.1 h with hpath | ⟨_, -, hmade⟩
    · exact Exported.escape?_of_ofPath hpath
    · cases hmade
  | svn repo path =>
    rcases bind_eq_error_iff.1 h with hpath | ⟨_, -, hmade⟩
    · exact Exported.escape?_of_ofPath hpath
    · cases hmade
  | listing url filter timeout =>
    rcases bind_eq_error_iff.1 h with hfilter | ⟨_, -, hmade⟩
    · obtain ⟨_, -, hcause⟩ := mapError_eq_error_iff.1 hfilter
      cases hcause
    · cases hmade
  | stamp => cases h
  | membership =>
    rcases bind_eq_error_iff.1 h with hclient | ⟨_, -, hmade⟩
    · obtain ⟨_, -, hcause⟩ := mapError_eq_error_iff.1 hclient
      cases hcause
    · cases hmade

end Source

/-- A subdirectory that leads out of its export is told under the type of its entry. -/
theorem Origin.name_of_escape? {o : Origin} {name reason : String}
    (h : o.escape? = some (.source name reason)) : name = o.type.name := by
  have hkind : ∀ {kind path : String},
      Exported.escape? kind path = some (.source name reason) → name = kind := by
    intro kind path hescape
    rw [Exported.escape?] at hescape
    split at hescape
    · cases hescape
    · cases Option.some.inj hescape
      rfl
  cases o with
  | git repo path branch => exact hkind h
  | svn repo path => exact hkind h
  | _ => cases h

namespace Runner

variable {around : Surroundings} {c : Config} {r : Runner} {tree : FileTree} {e : Failure}

/-! ### Plans and runs -/

/-- A writer never fails as a source does. -/
theorem writer_ne_source (c : Config) (name reason : String) :
    c.writer ≠ .error (.source name reason) := by
  intro h
  rcases bind_eq_error_iff.1 h with hformat | ⟨_, -, h⟩
  · rw [Publish.Format.ofName] at hformat
    split at hformat <;> cases hformat
  · rcases bind_eq_error_iff.1 h with hkept | ⟨_, -, hmade⟩
    · obtain ⟨_, -, hcause⟩ := mapError_eq_error_iff.1 hkept
      cases hcause
    · cases hmade

/-- Is a source in a plan the one that an entry asks for? It may fail besides, where there is no
directory for what it fetches. -/
def IsPlannedFor (around : Surroundings) (server : Range.Settings) (entry : SourceEntry)
    (p : Planned) : Prop :=
  p.label = entry.label ∧ ∃ s, Source.ofEntry around server entry = .ok s ∧
    ∀ tree, p.source.read tree = s.read tree ∨ ∃ cause, p.source.read tree = .error (.io cause)

/-- Is a plan one for a configuration: has it a source for each entry, in their order? -/
def IsPlanFor (around : Surroundings) (c : Config) (r : Runner) : Prop :=
  List.Forall₂ (IsPlannedFor around c.server) c.sources r.sources

theorem isPlanFor_of_ofConfig (h : ofConfig around c = .ok r) : IsPlanFor around c r := by
  obtain ⟨writer, -, h⟩ := bind_eq_ok_iff.1 h
  obtain ⟨sources, hsources, h⟩ := bind_eq_ok_iff.1 h
  obtain rfl := Except.ok.inj h
  refine (forall₂_of_mapM_eq_ok hsources).imp fun entry p hp => ?_
  obtain ⟨s, hs, hp⟩ := bind_eq_ok_iff.1 hp
  obtain rfl := Except.ok.inj hp
  exact ⟨rfl, s, hs, fun _ => .inl rfl⟩

/-- A source in a plan fails under the label of its entry. -/
theorem IsPlannedFor.isToldAs {server : Range.Settings} {entry : SourceEntry} {p : Planned}
    (h : IsPlannedFor around server entry p) (hread : p.source.read tree = .error e) :
    e.IsToldAs entry.label := by
  obtain ⟨-, s, hs, hreads⟩ := h
  rcases hreads tree with heq | ⟨cause, hio⟩
  · exact Source.isToldAs_read hs (heq ▸ hread)
  · obtain rfl := Except.error.inj (hread.symm.trans hio)
    exact Failure.isToldAs_io ..

/-- A collection fails exactly if a source cannot be read. -/
theorem exists_collect_eq_error_iff : (∃ e, r.collect tree = .error e) ↔
    ∃ p ∈ r.sources, ∃ e, p.source.read tree = .error e := by
  constructor
  · rintro ⟨e, he⟩
    obtain ⟨earlier, p, later, cause, hsources, -, hread, -⟩ := collectInto_eq_error_iff.1 he
    refine ⟨p, ?_, cause, hread⟩
    rw [hsources]
    exact List.mem_append_right _ (List.mem_cons_self ..)
  · rintro ⟨p, hp, cause, hread⟩
    cases hcollect : r.collect tree with
    | error e => exact ⟨e, rfl⟩
    | ok set =>
      obtain ⟨added, hadded⟩ := allRead_of_collectInto hcollect p hp
      cases hread.symm.trans hadded

/-- **A failure is told under the label of the first entry that fails.** Making a plan fails as a
source does only where a subdirectory leads out of its export, and only there the name may be
another one: it is the type of the entry, and so its label unless the entry is called otherwise.
A collection fails exactly if a source cannot be read. The failure has the label of the entry of
the first such source, and whatever stands behind that source has no part in it. -/
theorem failure_names (around : Surroundings) (c : Config) :
    (∀ name reason, ofConfig around c = .error (.source name reason) →
      ∃ before entry after, c.sources = before ++ entry :: after ∧
        (∀ x ∈ before, ∃ s, Source.ofEntry around c.server x = .ok s) ∧
        Source.ofEntry around c.server entry = .error (.source name reason) ∧
        entry.origin.escape? = some (.source name reason) ∧
        (name = entry.label ↔ entry.name = none ∨ entry.name = some entry.origin.type.name)) ∧
    (∀ r, ofConfig around c = .ok r → IsPlanFor around c r) ∧
    ∀ r tree, IsPlanFor around c r →
      ((∃ e, r.collect tree = .error e) ↔
        ∃ p ∈ r.sources, ∃ cause, p.source.read tree = .error cause) ∧
      ∀ e, r.collect tree = .error e →
        ∃ before entry after earlier p later reason,
          c.sources = before ++ entry :: after ∧ r.sources = earlier ++ p :: later ∧
          before.length = earlier.length ∧ AllRead tree earlier ∧
          (∃ cause, p.source.read tree = .error cause) ∧ e = .source entry.label reason ∧
          ∀ others, ({ r with sources := earlier ++ p :: others } : Runner).collect tree =
            .error e := by
  refine ⟨fun name reason h => ?_, fun r => isPlanFor_of_ofConfig, fun r tree hplan =>
    ⟨exists_collect_eq_error_iff, fun e he => ?_⟩⟩
  · have hsources : c.sources.mapM (Planned.ofEntry around c.server) =
        .error (.source name reason) := by
      rcases bind_eq_error_iff.1 h with hwriter | ⟨_, -, h⟩
      · exact absurd hwriter (writer_ne_source c name reason)
      · rcases bind_eq_error_iff.1 h with hsources | ⟨_, -, hmade⟩
        · exact hsources
        · cases hmade
    obtain ⟨before, entry, after, hsplit, hbefore, hentry⟩ := exists_first_of_mapM_eq_error hsources
    have hsource : Source.ofEntry around c.server entry = .error (.source name reason) := by
      rcases bind_eq_error_iff.1 hentry with hsource | ⟨_, -, hmade⟩
      · exact hsource
      · cases hmade
    have hescape := Source.escape?_of_ofEntry hsource
    refine ⟨before, entry, after, hsplit, fun x hx => ?_, hsource, hescape, ?_⟩
    · obtain ⟨p, hp⟩ := hbefore x hx
      obtain ⟨s, hs, -⟩ := bind_eq_ok_iff.1 hp
      exact ⟨s, hs⟩
    · rw [Origin.name_of_escape? hescape, SourceEntry.label]
      cases entry.name with
      | none => simp
      | some s => simp [eq_comm]
  · obtain ⟨earlier, p, later, cause, hsources, hread, hfails, rfl⟩ := collectInto_eq_error_iff.1 he
    rw [IsPlanFor, hsources] at hplan
    obtain ⟨before, entry, after, hentries, hlength, hplanned⟩ :=
      exists_of_forall₂_append_cons hplan
    have hlabel : cause.named p.label = cause.named entry.label := by rw [hplanned.1]
    obtain ⟨reason, hreason⟩ := hplanned.isToldAs hfails
    refine ⟨before, entry, after, earlier, p, later, reason, hentries, hsources, hlength, hread,
      ⟨cause, hfails⟩, hlabel.trans hreason, fun others => ?_⟩
    exact collectInto_eq_error_iff.2 ⟨earlier, p, others, cause, rfl, hread, hfails, rfl⟩

/-- A configuration whose second entry cannot be read. -/
def goneConfig : Config where
  directory := "/srv/range"
  sources := [{ origin := .stamp }, { origin := .directory "gone", name := some "hosts" }]

theorem exists_runner_goneConfig : ∃ r, ofConfig (Main.alone 0) goneConfig = .ok r ∧
    r.sources = [⟨"version", .merge, .stamp Stamp.usualName (Main.alone 0).now⟩,
      ⟨"hosts", .merge, .directory "hosts" "gone"⟩] :=
  ⟨_, rfl, rfl⟩

/-- The hypotheses in `failure_names` are satisfiable: a plan is made, and its second source is not
there. -/
theorem failure_names_goneConfig :
    ∃ r, ofConfig (Main.alone 0) goneConfig = .ok r ∧ IsPlanFor (Main.alone 0) goneConfig r ∧
      ∃ reason, r.collect .empty = .error (.source "hosts" reason) := by
  obtain ⟨-, hplan, hcollect⟩ := failure_names (Main.alone 0) goneConfig
  obtain ⟨r, hr, hsources⟩ := exists_runner_goneConfig
  obtain ⟨hfails, hnames⟩ := hcollect r .empty (hplan r hr)
  have hgone : FileTree.directory? .empty "gone" = none := by
    have hnames : Files.names "gone" = ["gone"] := by decide +kernel
    have hname : Files.nameError? "gone" = none := by decide +kernel
    rw [FileTree.directory?, FileTree.locate, hnames]
    simp [FileTree.walk, hname]
  have hread : (Source.directory "hosts" "gone").read .empty =
      .error (.source "hosts" "Destination is not a directory: gone") := by
    simp only [Source.directory, FileTree.readClusters, hgone]
    rfl
  obtain ⟨e, he⟩ : ∃ e, r.collect .empty = .error e :=
    hfails.2 ⟨⟨"hosts", .merge, .directory "hosts" "gone"⟩, by simp [hsources], _, hread⟩
  obtain ⟨before, entry, after, earlier, p, later, reason, hentries, hsplit, hlength, -,
    ⟨cause, hread⟩, rfl, -⟩ := hnames e he
  -- the first source always delivers
  obtain ⟨first, rfl⟩ : ∃ first, earlier = [first] := by
    rw [hsources] at hsplit
    rcases earlier with _ | ⟨first, _ | ⟨second, rest⟩⟩
    · cases hsplit
      cases hread
    · exact ⟨first, rfl⟩
    · simp at hsplit
  obtain ⟨x, rfl⟩ := List.length_eq_one_iff.1 hlength
  cases hentries
  exact ⟨r, hr, hplan r hr, reason, he⟩

/-- An entry whose subdirectory leads out of its export. -/
def escapingEntry : SourceEntry where
  origin := .git "https://host/clusters.git" "../range" none
  name := some "hosts"

def escapingConfig : Config where
  directory := "/srv/range"
  sources := [escapingEntry]

/-- **A subdirectory that leads out of its export is told under the type of its entry**, whatever
the entry is called. -/
theorem ofConfig_names_kind :
    escapingConfig.sources = [escapingEntry] ∧ escapingEntry.label = "hosts" ∧
    ofConfig (Main.alone 0) escapingConfig = .error (.source "git"
      "subdirectory must be relative and stay inside the export: ../range") := by
  have hbelow : Files.staysBelow "../range" = false := by decide +kernel
  have hescape : escapingEntry.origin.escape? = some (.source "git"
      "subdirectory must be relative and stay inside the export: ../range") := by
    change Exported.escape? "git" "../range" = _
    rw [Exported.escape?, hbelow]
    rfl
  obtain ⟨w, hw⟩ : ∃ w, escapingConfig.writer = .ok w := ⟨_, rfl⟩
  refine ⟨rfl, rfl, bind_eq_error_iff.2 (.inr ⟨w, hw, bind_eq_error_iff.2 (.inl ?_)⟩)⟩
  have hentry : Planned.ofEntry (Main.alone 0) escapingConfig.server escapingEntry = .error
      (.source "git" "subdirectory must be relative and stay inside the export: ../range") := by
    rw [Planned.ofEntry, Source.ofEntry_of_escape (Main.alone 0) hescape]
    rfl
  have hsources : escapingConfig.sources = [escapingEntry] := rfl
  rw [hsources, List.mapM_cons, hentry]
  rfl

end Runner

end ClusterSync
