import BoundaryProxy.CommandLine.Run
import BoundaryProxy.Proofs.Host.Disk

/-!
# `Proofs.CommandLine.Run` — the steps of a command that succeeds

`Run.Gives x s a s'` says that a command `x` started in a session `s` succeeds with `a` and leaves the session `s'`. A
sequence succeeds exactly if its parts do (`gives_bind_iff`), so a command that succeeded is taken apart step by step,
and each step says in full what it did to the session.
-/

namespace BoundaryProxy.CommandLine

open BoundaryProxy.Host

variable {α β : Type}

namespace Run

variable {s s' : Session} {x : Run α} {a a' : α} {b : β}

/-- A command succeeds and leaves a session. -/
def Gives (x : Run α) (s : Session) (a : α) (s' : Session) : Prop :=
  x.run s = (.ok a, s')

theorem Gives.unique {s₁ s₂ : Session} (h : Gives x s a s₁) (h' : Gives x s a' s₂) : a = a' ∧ s₁ = s₂ := by
  obtain ⟨ha, hs⟩ := Prod.mk.inj (h.symm.trans h')
  exact ⟨Except.ok.inj ha, hs⟩

theorem gives_pure_iff : Gives (pure a : Run α) s a' s' ↔ a = a' ∧ s = s' := by
  constructor
  · intro h
    exact ⟨Except.ok.inj (Prod.mk.inj h).1, (Prod.mk.inj h).2⟩
  · rintro ⟨rfl, rfl⟩
    rfl

theorem run_bind (x : Run α) (f : α → Run β) (s : Session) :
    (x >>= f).run s = match x.run s with
      | (.ok a, s₁) => (f a).run s₁
      | (.error e, s₁) => (.error e, s₁) := by
  rw [ExceptT.run_bind]
  cases hx : x.run s with
  | mk r s₁ =>
    simp only [bind, StateT.bind, hx]
    cases r <;> rfl

theorem gives_bind_iff {f : α → Run β} :
    Gives (x >>= f) s b s' ↔ ∃ a s₁, Gives x s a s₁ ∧ Gives (f a) s₁ b s' := by
  unfold Gives
  rw [run_bind]
  obtain ⟨r, s₁⟩ := x.run s
  cases r with
  | error e =>
    refine ⟨fun h => (nomatch (Prod.mk.inj h).1), ?_⟩
    rintro ⟨a, s₂, hx, -⟩
    exact nomatch (Prod.mk.inj hx).1
  | ok a =>
    refine ⟨fun h => ⟨a, s₁, rfl, h⟩, ?_⟩
    rintro ⟨a', s₂, hx, h⟩
    obtain ⟨ha, rfl⟩ := Prod.mk.inj hx
    obtain rfl := Except.ok.inj ha
    exact h

/-- Two steps, the first of which has nothing to give. -/
theorem gives_seq_iff {first : Run Unit} {second : Run β} :
    Gives (do first; second) s b s' ↔ ∃ s₁, Gives first s () s₁ ∧ Gives second s₁ b s' := by
  refine gives_bind_iff.trans ⟨?_, fun ⟨s₁, h, k⟩ => ⟨(), s₁, h, k⟩⟩
  rintro ⟨⟨⟩, s₁, h, k⟩
  exact ⟨s₁, h, k⟩

/-! ## Single steps -/

theorem gives_get_iff : Gives (get : Run Session) s s₁ s' ↔ s = s₁ ∧ s = s' := by
  constructor
  · intro h
    exact ⟨Except.ok.inj (Prod.mk.inj h).1, (Prod.mk.inj h).2⟩
  · rintro ⟨rfl, rfl⟩
    rfl

theorem gives_onTerminal_iff {f : Terminal → Terminal} :
    Gives (onTerminal f) s () s' ↔ s' = { s with terminal := f s.terminal } :=
  ⟨fun h => (Prod.mk.inj h).2.symm, fun h => h ▸ rfl⟩

theorem gives_onTerminal_seq_iff {f : Terminal → Terminal} {rest : Run β} :
    Gives (do onTerminal f; rest) s b s' ↔ Gives rest { s with terminal := f s.terminal } b s' := by
  refine gives_seq_iff.trans ⟨?_, fun h => ⟨_, gives_onTerminal_iff.mpr rfl, h⟩⟩
  rintro ⟨s₁, hterminal, h⟩
  exact gives_onTerminal_iff.mp hterminal ▸ h

theorem gives_liftExcept_iff {r : Except Failure α} : Gives (r : Run α) s a s' ↔ r = .ok a ∧ s = s' := by
  cases r with
  | error e => exact ⟨fun h => (nomatch (Prod.mk.inj h).1), fun h => (nomatch h.1)⟩
  | ok a' =>
    refine ⟨fun h => ⟨(Prod.mk.inj h).1, (Prod.mk.inj h).2⟩, ?_⟩
    rintro ⟨h, rfl⟩
    exact congrArg (·, s) h

theorem gives_consult_iff {question : Disk → Place → Except Failure α} :
    Gives (consult question) s a s' ↔ question s.disk s.here = .ok a ∧ s = s' := by
  unfold consult
  rw [gives_bind_iff]
  constructor
  · rintro ⟨s₁, s₂, hget, h⟩
    obtain ⟨rfl, rfl⟩ := gives_get_iff.mp hget
    exact gives_liftExcept_iff.mp h
  · intro h
    exact ⟨s, s, gives_get_iff.mpr ⟨rfl, rfl⟩, gives_liftExcept_iff.mpr h⟩

/-- A step that changes the disk changes nothing else. -/
theorem gives_change_iff {failure : IoFault → Failure} {action : Disk → Place → Except IoFault Disk} :
    Gives (change failure action) s () s' ↔ ∃ d, action s.disk s.here = .ok d ∧ s' = { s with disk := d } := by
  unfold change
  constructor
  · intro h
    obtain ⟨s₀, s₁, hget, h⟩ := gives_bind_iff.mp h
    obtain ⟨rfl, rfl⟩ := gives_get_iff.mp hget
    cases haction : action s.disk s.here with
    | error fault =>
      rw [haction] at h
      exact absurd (Prod.mk.inj h).1 (fun h => (nomatch h))
    | ok d =>
      rw [haction] at h
      exact ⟨d, rfl, (Prod.mk.inj h).2.symm⟩
  · rintro ⟨d, hd, rfl⟩
    refine gives_bind_iff.mpr ⟨s, s, gives_get_iff.mpr ⟨rfl, rfl⟩, ?_⟩
    rw [hd]
    rfl

/-- A file that the disk keeps is written, and nothing is said of it on the terminal. -/
theorem gives_write_iff {failure : IoFault → Failure} {path : String} {content : List UInt8}
    (hpath : Disk.Stored path) :
    Gives (write failure path content) s () s' ↔
      ∃ d, s.disk.write s.here path content = .ok d ∧ s' = { s with disk := d } := by
  unfold write
  constructor
  · intro h
    obtain ⟨s₀, s₁, hget, h⟩ := gives_bind_iff.mp h
    obtain ⟨rfl, rfl⟩ := gives_get_iff.mp hget
    obtain ⟨s₂, hchange, h⟩ := gives_seq_iff.mp h
    obtain ⟨d, hd, rfl⟩ := gives_change_iff.mp hchange
    -- no stream is at the place, so nothing else is written
    obtain ⟨p, hp, -⟩ := Disk.wrote_of_write hpath hd
    rw [Disk.device?_of_stored hpath hp] at h
    obtain ⟨-, rfl⟩ := gives_pure_iff.mp h
    exact ⟨d, hd, rfl⟩
  · rintro ⟨d, hd, rfl⟩
    obtain ⟨p, hp, -⟩ := Disk.wrote_of_write hpath hd
    refine gives_bind_iff.mpr ⟨s, s, gives_get_iff.mpr ⟨rfl, rfl⟩, ?_⟩
    refine gives_seq_iff.mpr ⟨{ s with disk := d }, gives_change_iff.mpr ⟨d, hd, rfl⟩, ?_⟩
    rw [Disk.device?_of_stored hpath hp]
    exact gives_pure_iff.mpr ⟨rfl, rfl⟩

/-! ## What commands have in common -/

theorem readCatalog_of_readText {disk : Disk} {here : Place} {path text : String} {c : Catalog}
    (htext : disk.readText here path = .ok text) (hcatalog : Catalog.ofJson text = .ok c) :
    readCatalog disk here path = .ok c := by
  unfold readCatalog
  rw [htext]
  show (Catalog.ofJson text).mapError (Failure.catalogInvalid path) = .ok c
  rw [hcatalog]
  rfl

theorem readProfile_of_readText {disk : Disk} {here : Place} {path text : String} {p : Profile}
    (htext : disk.readText here path = .ok text) (hprofile : Profile.ofToml text = .ok p) :
    readProfile disk here (some path) = .ok p := by
  unfold readProfile profilePath?
  dsimp only
  rw [htext]
  show (Profile.ofToml text).mapError (Failure.profileInvalid path) = .ok p
  rw [hprofile]
  rfl

/-- Loading a host reads and reports. -/
theorem gives_loadHost_iff {catalogPath : String} {named : Option String} {h : HostModel} :
    Gives (loadHost catalogPath named) s h s' ↔
      readCatalog s.disk s.here catalogPath = .ok h.catalog ∧ readProfile s.disk s.here named = .ok h.profile ∧
        (findRegistries h.catalog h.profile).1 = .ok h.registries ∧
        s' = { s with terminal := (findRegistries h.catalog h.profile).2.foldl Terminal.report s.terminal } := by
  unfold loadHost
  constructor
  · intro hrun
    obtain ⟨catalog, s₁, hread, hrun⟩ := gives_bind_iff.mp hrun
    obtain ⟨hcatalog, rfl⟩ := gives_consult_iff.mp hread
    obtain ⟨profile, s₁, hread, hrun⟩ := gives_bind_iff.mp hrun
    obtain ⟨hprofile, rfl⟩ := gives_consult_iff.mp hread
    obtain ⟨s₁, hreport, hrun⟩ := gives_seq_iff.mp hrun
    obtain ⟨registries, s₂, hfound, hpure⟩ := gives_bind_iff.mp hrun
    obtain ⟨hregistries, rfl⟩ := gives_liftExcept_iff.mp hfound
    obtain ⟨rfl, rfl⟩ := gives_pure_iff.mp hpure
    exact ⟨hcatalog, hprofile, hregistries, gives_onTerminal_iff.mp hreport⟩
  · rintro ⟨hcatalog, hprofile, hregistries, rfl⟩
    refine gives_bind_iff.mpr ⟨_, s, gives_consult_iff.mpr ⟨hcatalog, rfl⟩, ?_⟩
    refine gives_bind_iff.mpr ⟨_, s, gives_consult_iff.mpr ⟨hprofile, rfl⟩, ?_⟩
    refine gives_seq_iff.mpr ⟨_, gives_onTerminal_iff.mpr rfl, ?_⟩
    exact gives_bind_iff.mpr ⟨_, _, gives_liftExcept_iff.mpr ⟨hregistries, rfl⟩, gives_pure_iff.mpr ⟨rfl, rfl⟩⟩

/-- A proxy is there at once; what it does not offer is reported. -/
theorem synthesize_gives (spec : ProxySpec) (s : Session) :
    Gives (synthesize spec) s spec.synthesize.1
      { s with terminal := (spec.synthesize.2.map (·.diagnostic)).foldl Terminal.report s.terminal } :=
  rfl

theorem gives_synthesize_bind_iff {spec : ProxySpec} {f : ProxyUnit → Run β} :
    Gives (synthesize spec >>= f) s b s' ↔
      Gives (f spec.synthesize.1)
        { s with terminal := (spec.synthesize.2.map (·.diagnostic)).foldl Terminal.report s.terminal } b s' := by
  refine gives_bind_iff.trans ⟨?_, fun h => ⟨_, _, synthesize_gives spec s, h⟩⟩
  rintro ⟨unit, s₁, hsynthesize, h⟩
  obtain ⟨rfl, rfl⟩ := (synthesize_gives spec s).unique hsynthesize
  exact h

end Run

end BoundaryProxy.CommandLine
