import BoundaryProxy.Proofs.Catalog.RoundTrip
import BoundaryProxy.Proofs.CommandLine.Run
import BoundaryProxy.Proofs.Synthesis.Events

/-!
# `Proofs.CommandLine.Generate` — which proxies a run keeps

A run that writes proxies names each file for the letters of a type's simple name, and it writes one file after the
other. Two interfaces may so have one file; of them the file keeps the one that was written last.

`Keeps` says this of a disk, and writing one more proxy keeps it true (`Keeps.write`). So after a whole run every target
has its own proxy in its file exactly if no two targets with different proxies share a place (`generate_keeps`). The
number that is reported counts the targets in either case.
-/

namespace BoundaryProxy.CommandLine

open BoundaryProxy.Host

/-! ## Terminals -/

namespace Terminal

/-- Reports go elsewhere than results. -/
theorem foldl_report_stdout (ds : List Diagnostic) (t : Terminal) : (ds.foldl report t).stdout = t.stdout := by
  induction ds generalizing t with
  | nil => rfl
  | cons d ds ih => exact ih (t.report d)

theorem foldl_report_colored (ds : List Diagnostic) (t : Terminal) : (ds.foldl report t).colored = t.colored := by
  induction ds generalizing t with
  | nil => rfl
  | cons d ds ih => exact ih (t.report d)

theorem summarize_stdout (t : Terminal) : t.summarize.stdout = t.stdout := by
  unfold summarize
  split <;> rfl

theorem print_print (t : Terminal) (a b : String) : (t.print a).print b = t.print (a ++ b) := by
  unfold print
  rw [String.append_assoc]

end Terminal

/-! ## Single proxies -/

namespace HostModel

/-- The class of an interface's proxy. -/
def className (h : HostModel) (i : Interface) : String :=
  Naming.letterName i.type.simpleName ++ h.profile.classSuffix

/-- The file to which the proxy of an interface is written. -/
def file (h : HostModel) (directory : String) (i : Interface) : String :=
  Disk.join directory (h.className i ++ Disk.sourceExtension)

/-- What is said of a proxy that was written. -/
def line (h : HostModel) (directory : String) (colored : Bool) (i : Interface) : String :=
  Style.success.paint colored "Generated " ++ (h.className i ++ " ") ++
    Style.info.paint colored (h.file directory i) ++ "\n"

/-- The terminal after what the proxy of an interface does not offer was reported. -/
def reported (h : HostModel) (i : Interface) (t : Terminal) : Terminal :=
  ((h.spec i).synthesize.2.map (·.diagnostic)).foldl Terminal.report t

theorem spec_className (h : HostModel) (i : Interface) : (h.spec i).synthesize.1.className = h.className i :=
  ProxySpec.synthesize_className (h.spec i)

/-- No letter is a slash, so a class name is one name in a path if its suffix has no slash. -/
theorem className_no_slash (h : HostModel) (hsuffix : '/' ∉ h.profile.classSuffix.toList) (i : Interface) :
    '/' ∉ (h.className i).toList := by
  have hletters : '/' ∉ (Naming.letterName i.type.simpleName).toList := by
    unfold Naming.letterName
    rw [String.toList_ofList, List.mem_filter]
    exact fun hmem => absurd hmem.2 (by decide)
  unfold className
  rw [String.toList_append, List.mem_append]
  exact fun hmem => hmem.elim hletters hsuffix

theorem reported_stdout (h : HostModel) (i : Interface) (t : Terminal) : (h.reported i t).stdout = t.stdout :=
  Terminal.foldl_report_stdout _ t

theorem reported_colored (h : HostModel) (i : Interface) (t : Terminal) : (h.reported i t).colored = t.colored :=
  Terminal.foldl_report_colored _ t

theorem stored_file (h : HostModel) (directory : String) (i : Interface) : Disk.Stored (h.file directory i) :=
  Disk.stored_join directory (h.className i)

end HostModel

namespace Run

variable {h : HostModel} {directory : String} {i : Interface} {targets : List Interface} {s s' : Session}

/-- Writing a proxy puts its source into its file. -/
theorem gives_writeProxy_iff :
    Gives (writeProxy h directory i) s () s' ↔
      ∃ d, s.disk.write s.here (h.file directory i) (Text.toUtf8 (h.spec i).source) = .ok d ∧
        s' = { s with
          disk := d
          terminal := (h.reported i s.terminal).print (h.line directory (h.reported i s.terminal).colored i) } := by
  -- the four parts of the line are printed one after the other
  have hline (t : Terminal) (d : Disk) :
      Gives (do
        printStyled .success "Generated "
        print s!"{h.className i} "
        printStyled .info (h.file directory i)
        print "\n") ⟨d, s.here, t⟩ () s' ↔ s' = ⟨d, s.here, t.print (h.line directory t.colored i)⟩ := by
    unfold printStyled print
    rw [gives_onTerminal_seq_iff, gives_onTerminal_seq_iff, gives_onTerminal_seq_iff, gives_onTerminal_iff]
    unfold Terminal.printStyled
    rw [Terminal.print_print, Terminal.print_print, Terminal.print_print]
    rfl
  unfold writeProxy
  rw [gives_synthesize_bind_iff, h.spec_className, gives_seq_iff]
  constructor
  · rintro ⟨s₁, hwrite, hrest⟩
    obtain ⟨d, hd, rfl⟩ := (gives_write_iff (h.stored_file directory i)).mp hwrite
    exact ⟨d, hd, (hline _ d).mp hrest⟩
  · rintro ⟨d, hd, hs'⟩
    exact ⟨_, (gives_write_iff (h.stored_file directory i)).mpr ⟨d, hd, rfl⟩, (hline _ d).mpr hs'⟩

/-- Printing a proxy prints its source. -/
theorem gives_printProxy_iff :
    Gives (printProxy h i) s () s' ↔
      s' = { s with terminal := (h.reported i s.terminal).print (h.spec i).source } := by
  unfold printProxy
  rw [gives_synthesize_bind_iff]
  exact gives_onTerminal_iff

end Run

/-! ## What is kept -/

/-- The file of every target holds the proxy of the last target that was written to the same place. -/
structure Keeps (h : HostModel) (directory : String) (here : Place) (targets : List Interface) (d : Disk) : Prop where
  placed : ∀ i ∈ targets, ∃ p, d.place here (h.file directory i) = .ok p
  latest : ∀ i ∈ targets, ∃ before j after, targets = before ++ j :: after ∧
    d.place here (h.file directory j) = d.place here (h.file directory i) ∧
    (∀ k ∈ after, d.place here (h.file directory k) ≠ d.place here (h.file directory i)) ∧
    d.readText here (h.file directory i) = .ok (h.spec j).source

namespace Keeps

variable {h : HostModel} {directory : String} {here : Place} {targets : List Interface} {d d' : Disk} {i : Interface}

theorem nil (h : HostModel) (directory : String) (here : Place) (d : Disk) : Keeps h directory here [] d where
  placed _ hi := (nomatch hi)
  latest _ hi := (nomatch hi)

/-- **One more proxy** that is written. -/
theorem write (hkeeps : Keeps h directory here targets d)
    (hwrite : d.write here (h.file directory i) (Text.toUtf8 (h.spec i).source) = .ok d') :
    Keeps h directory here (targets ++ [i]) d' := by
  have hstored := h.stored_file directory
  obtain ⟨p, hp, hwrote⟩ := Disk.wrote_of_write (hstored i) hwrite
  have hplaced : ∀ j ∈ targets ++ [i], ∃ q, d.place here (h.file directory j) = .ok q := by
    intro j hj
    rcases List.mem_append.mp hj with hj | hj
    · exact hkeeps.placed j hj
    · exact ⟨p, List.mem_singleton.mp hj ▸ hp⟩
  -- every file is where it was, so places are compared on the old disk
  have hsame : ∀ j ∈ targets ++ [i], d'.place here (h.file directory j) = d.place here (h.file directory j) := by
    intro j hj
    obtain ⟨q, hq⟩ := hplaced j hj
    rw [hq, hwrote.place (hstored j) hq]
  refine ⟨fun j hj => hsame j hj ▸ hplaced j hj, fun j hj => ?_⟩
  obtain ⟨q, hq⟩ := hplaced j hj
  rw [hsame j hj]
  by_cases hqp : q = p
  · -- the proxy was written over whatever stood there
    subst hqp
    refine ⟨targets, i, [], rfl, ?_, fun k hk => (nomatch hk), hwrote.readText (hstored j) hq⟩
    rw [hwrote.place (hstored i) hp, hq]
  · have hj : j ∈ targets := by
      refine (List.mem_append.mp hj).resolve_right fun hj => hqp ?_
      obtain rfl := List.mem_singleton.mp hj
      exact Except.ok.inj (hq.symm.trans hp)
    obtain ⟨before, k, after, rfl, hk, hafter, hread⟩ := hkeeps.latest j hj
    refine ⟨before, k, after ++ [i], by simp, ?_, fun l hl => ?_,
      (hwrote.readText_of_ne (hstored j) hq hqp).trans hread⟩
    · rw [hsame k (by simp), hk]
    · rcases List.mem_append.mp hl with hl | hl
      · rw [hsame l (by simp [hl])]
        exact hafter l hl
      · obtain rfl := List.mem_singleton.mp hl
        rw [hwrote.place (hstored l) hp, hq]
        exact fun heq => hqp (Except.ok.inj heq).symm

/-- **Every target has its own proxy** in its file exactly if targets that share a place have the same proxy. -/
theorem all_iff (hkeeps : Keeps h directory here targets d) :
    (∀ i ∈ targets, d.readText here (h.file directory i) = .ok (h.spec i).source) ↔
      ∀ i ∈ targets, ∀ j ∈ targets, d.place here (h.file directory i) = d.place here (h.file directory j) →
        (h.spec i).source = (h.spec j).source := by
  constructor
  · -- one place is read once, so the two sources are what is read there
    intro hall i hi j hj hplace
    have hread : d.readText here (h.file directory i) = d.readText here (h.file directory j) := by
      unfold Disk.readText Disk.read
      rw [hplace]
    exact Except.ok.inj ((hall i hi).symm.trans (hread.trans (hall j hj)))
  · intro hshared i hi
    obtain ⟨before, j, after, rfl, hplace, -, hread⟩ := hkeeps.latest i hi
    rw [hread, hshared j (by simp) i hi hplace]

/-- Below one directory files are at the same place exactly if the classes have one name, so if the letters of the
    types' simple names agree. -/
theorem place_eq_iff (hkeeps : Keeps h directory here targets d) (hsuffix : '/' ∉ h.profile.classSuffix.toList)
    {i j : Interface} (hi : i ∈ targets) :
    d.place here (h.file directory i) = d.place here (h.file directory j) ↔
      Naming.letterName i.type.simpleName = Naming.letterName j.type.simpleName := by
  have hslash := h.className_no_slash hsuffix
  constructor
  · intro hplace
    obtain ⟨p, hp⟩ := hkeeps.placed i hi
    have hclass : h.className i = h.className j := Disk.stem_eq_of_place_eq (hslash i) (hslash j) hp (hplace ▸ hp)
    exact (String.append_left_inj _).mp hclass
  · intro hletters
    have hfile : h.file directory i = h.file directory j := by
      unfold HostModel.file HostModel.className
      rw [hletters]
    rw [hfile]

end Keeps

namespace Run

variable {h : HostModel} {catalogPath directory : String} {names : List String} {named : Option String}
  {done targets : List Interface} {s s' : Session}

/-! ## The proxies of a run -/

theorem forM_printProxy_gives (h : HostModel) (targets : List Interface) (s : Session) :
    ∃ t, Gives (targets.forM (printProxy h)) s () { s with terminal := t } ∧
      t.stdout = s.terminal.stdout ++ String.join (targets.map fun i => (h.spec i).source) := by
  induction targets generalizing s with
  | nil => exact ⟨s.terminal, rfl, by simp⟩
  | cons i targets ih =>
    let t := (h.reported i s.terminal).print (h.spec i).source
    obtain ⟨t', htargets, ht'⟩ := ih { s with terminal := t }
    refine ⟨t', gives_seq_iff.mpr ⟨_, gives_printProxy_iff.mpr rfl, htargets⟩, ?_⟩
    have ht : t.stdout = s.terminal.stdout ++ (h.spec i).source := by
      rw [← h.reported_stdout i s.terminal]
      rfl
    rw [ht', ht, List.map_cons, String.join_cons, String.append_assoc]

/-- Whatever number of proxies is written, the disk keeps them. -/
theorem keeps_of_forM_writeProxy (hkeeps : Keeps h directory s.here done s.disk)
    (hrun : Gives (targets.forM (writeProxy h directory)) s () s') :
    Keeps h directory s.here (done ++ targets) s'.disk ∧ s'.terminal.colored = s.terminal.colored ∧
      s'.terminal.stdout = s.terminal.stdout ++ String.join (targets.map (h.line directory s.terminal.colored)) := by
  -- those that were written before grow by one at each step
  induction targets generalizing done s with
  | nil =>
    obtain ⟨-, rfl⟩ := gives_pure_iff.mp hrun
    exact ⟨(List.append_nil done).symm ▸ hkeeps, rfl, by simp⟩
  | cons i targets ih =>
    obtain ⟨s₁, hi, hrun⟩ := gives_seq_iff.mp hrun
    obtain ⟨d, hwrite, rfl⟩ := gives_writeProxy_iff.mp hi
    have hwritten : Keeps h directory s.here (done ++ [i]) d := hkeeps.write hwrite
    obtain ⟨hkeeps', hcolored, hstdout⟩ := ih (s := ⟨d, s.here, _⟩) hwritten hrun
    simp only [Terminal.print, h.reported_colored, h.reported_stdout] at hcolored hstdout
    refine ⟨?_, hcolored, ?_⟩
    · rwa [List.append_assoc] at hkeeps'
    · rw [hstdout, List.map_cons, String.join_cons, String.append_assoc]

/-- Proxies are written unless a directory stands where a file of theirs should. -/
theorem exists_forM_writeProxy
    (hfree : ∀ i ∈ targets, ∃ p, s.disk.place s.here (h.file directory i) = .ok p ∧ s.disk.isDirectory p = false) :
    ∃ s', Gives (targets.forM (writeProxy h directory)) s () s' := by
  induction targets generalizing s with
  | nil => exact ⟨s, rfl⟩
  | cons i targets ih =>
    obtain ⟨p, hp, hfile⟩ := hfree i List.mem_cons_self
    obtain ⟨d, hwrite, hwrote⟩ := Disk.exists_write (h.stored_file directory i) hp hfile
      (Text.toUtf8 (h.spec i).source)
    let t := (h.reported i s.terminal).print (h.line directory (h.reported i s.terminal).colored i)
    -- the paths of the others lead where they led before
    obtain ⟨s', hrun⟩ := ih (s := ⟨d, s.here, t⟩) fun j hj => by
      obtain ⟨q, hq, hfree⟩ := hfree j (List.mem_cons_of_mem i hj)
      exact ⟨q, hwrote.place (h.stored_file directory j) hq, (hwrote.sameDirectories q).trans hfree⟩
    exact ⟨s', gives_seq_iff.mpr ⟨_, gives_writeProxy_iff.mpr ⟨d, hwrite, rfl⟩, hrun⟩⟩

/-! ## Whole runs -/

/-- A run that prints succeeds if the host can be loaded and the targets are found. -/
theorem generate_prints {s₁ : Session} (hload : Gives (loadHost catalogPath named) s h s₁)
    (htargets : h.targets names = .ok targets) :
    ∃ t, Gives (generate catalogPath names directory named true) s () { s with terminal := t } ∧
      t.stdout = s.terminal.stdout ++ String.join (targets.map fun i => (h.spec i).source) := by
  obtain ⟨-, -, -, rfl⟩ := gives_loadHost_iff.mp hload
  let s₁ : Session := { s with
    terminal := (findRegistries h.catalog h.profile).2.foldl Terminal.report s.terminal }
  obtain ⟨t, hprint, ht⟩ := forM_printProxy_gives h targets s₁
  have hfind : Gives (h.targets names : Run (List Interface)) s₁ targets s₁ :=
    gives_liftExcept_iff.mpr ⟨htargets, rfl⟩
  refine ⟨t.summarize, gives_bind_iff.mpr ⟨h, s₁, hload, gives_bind_iff.mpr ⟨targets, s₁, hfind, ?_⟩⟩, ?_⟩
  · exact gives_seq_iff.mpr ⟨_, hprint, gives_onTerminal_iff.mpr rfl⟩
  · rw [Terminal.summarize_stdout, ht, Terminal.foldl_report_stdout]

/-- A run that writes makes the directory, writes one proxy after the other and reports how many there were. -/
theorem gives_generate_iff :
    Gives (generate catalogPath names directory named false) s () s' ↔
      ∃ h s₁ targets d s₂, Gives (loadHost catalogPath named) s h s₁ ∧ h.targets names = .ok targets ∧
        s₁.disk.makeDirectories s₁.here directory = .ok d ∧
        Gives (targets.forM (writeProxy h directory)) { s₁ with disk := d } () s₂ ∧
        s' = { s₂ with terminal := ((s₂.terminal.printStyled .heading
          s!"{targets.length} proxy class(es) written").print "\n").summarize } := by
  unfold generate
  constructor
  · intro hrun
    obtain ⟨h, s₁, hload, hrun⟩ := gives_bind_iff.mp hrun
    obtain ⟨targets, s₁, hfind, hrun⟩ := gives_bind_iff.mp hrun
    obtain ⟨htargets, rfl⟩ := gives_liftExcept_iff.mp hfind
    obtain ⟨s₂, hdirectory, hrun⟩ := gives_seq_iff.mp hrun
    obtain ⟨d, hd, rfl⟩ := gives_change_iff.mp hdirectory
    obtain ⟨s₂, hwrite, hrun⟩ := gives_seq_iff.mp hrun
    exact ⟨h, _, targets, d, s₂, hload, htargets, hd, hwrite,
      gives_onTerminal_iff.mp (gives_onTerminal_seq_iff.mp (gives_onTerminal_seq_iff.mp hrun))⟩
  · rintro ⟨h, s₁, targets, d, s₂, hload, htargets, hd, hwrite, rfl⟩
    refine gives_bind_iff.mpr ⟨h, s₁, hload, gives_bind_iff.mpr ⟨targets, s₁, ?_, ?_⟩⟩
    · exact gives_liftExcept_iff.mpr ⟨htargets, rfl⟩
    · refine gives_seq_iff.mpr ⟨_, gives_change_iff.mpr ⟨d, hd, rfl⟩, gives_seq_iff.mpr ⟨s₂, hwrite, ?_⟩⟩
      exact gives_onTerminal_seq_iff.mpr (gives_onTerminal_seq_iff.mpr (gives_onTerminal_iff.mpr rfl))

/-- The disk keeps the proxies of the targets, and as many are reported. -/
theorem keeps_of_generate {s₁ : Session} (hrun : Gives (generate catalogPath names directory named false) s () s')
    (hload : Gives (loadHost catalogPath named) s h s₁) (htargets : h.targets names = .ok targets) :
    s'.terminal.stdout = s.terminal.stdout ++ String.join (targets.map (h.line directory s.terminal.colored)) ++
        Style.heading.paint s.terminal.colored s!"{targets.length} proxy class(es) written" ++ "\n" ∧
      Keeps h directory s.here targets s'.disk := by
  obtain ⟨h', s₂, targets', d, s₃, hload', htargets', -, hwrite, rfl⟩ := gives_generate_iff.mp hrun
  obtain ⟨rfl, rfl⟩ := hload.unique hload'
  obtain rfl : targets = targets' := Except.ok.inj (htargets.symm.trans htargets')
  obtain ⟨-, -, -, rfl⟩ := gives_loadHost_iff.mp hload
  obtain ⟨hkeeps, hcolored, hstdout⟩ := keeps_of_forM_writeProxy (.nil h directory s.here d) hwrite
  refine ⟨?_, hkeeps⟩
  simp only [Terminal.foldl_report_colored, Terminal.foldl_report_stdout] at hcolored hstdout
  simp only [Terminal.summarize_stdout, Terminal.print, Terminal.printStyled, hcolored, hstdout]

/-- **What a run that writes proxies keeps.** The run that prints succeeds as well and prints the sources of the same
    targets. The number reported is theirs. The file of every target is there and holds the source of the last target
    that has a file at this place, so each target has its own source in its file exactly if no two targets with
    different sources share a place. Below a directory it is the letters of the simple names that decide, as long as
    the profile puts no slash behind them. -/
theorem generate_keeps (catalogPath : String) (names : List String) (directory : String) (named : Option String)
    (s s' : Session) (hrun : Gives (generate catalogPath names directory named false) s () s') :
    ∃ h s₁ targets, Gives (loadHost catalogPath named) s h s₁ ∧ h.targets names = .ok targets ∧
      (∃ t, Gives (generate catalogPath names directory named true) s () { s with terminal := t } ∧
        t.stdout = s.terminal.stdout ++ String.join (targets.map fun i => (h.spec i).source)) ∧
      s'.terminal.stdout = s.terminal.stdout ++ String.join (targets.map (h.line directory s.terminal.colored)) ++
        Style.heading.paint s.terminal.colored s!"{targets.length} proxy class(es) written" ++ "\n" ∧
      Keeps h directory s.here targets s'.disk ∧
      ((∀ i ∈ targets, s'.disk.readText s.here (h.file directory i) = .ok (h.spec i).source) ↔
        ∀ i ∈ targets, ∀ j ∈ targets,
          s'.disk.place s.here (h.file directory i) = s'.disk.place s.here (h.file directory j) →
            (h.spec i).source = (h.spec j).source) ∧
      ('/' ∉ h.profile.classSuffix.toList → ∀ i ∈ targets, ∀ j ∈ targets,
        (s'.disk.place s.here (h.file directory i) = s'.disk.place s.here (h.file directory j) ↔
          Naming.letterName i.type.simpleName = Naming.letterName j.type.simpleName)) := by
  obtain ⟨h, s₁, targets, -, -, hload, htargets, -⟩ := gives_generate_iff.mp hrun
  obtain ⟨hstdout, hkeeps⟩ := keeps_of_generate hrun hload htargets
  exact ⟨h, s₁, targets, hload, htargets, generate_prints hload htargets, hstdout, hkeeps, hkeeps.all_iff,
    fun hsuffix i hi j _ => hkeeps.place_eq_iff hsuffix hi⟩

/-! ## Two interfaces of one simple name -/

/-- An interface with one method, in a namespace. -/
def thing (space method : String) : Interface :=
  { type := .named (space ++ ".IThing"), methods := [⟨method, [], .void, false⟩] }

/-- A host of two interfaces that differ in their namespaces. -/
def twins : HostModel :=
  ⟨.ofParts none [thing "Ns" "A", thing "Other" "B"], .default, .empty⟩

/-- A session in a directory with the catalog of the host and nothing else. -/
def twinsSession : Session :=
  ⟨⟨[(["catalog.json"], .file (Text.toUtf8 twins.catalog.toJson) false)]⟩, [], { colored := false }⟩

theorem wellTyped_thing {space method : String} (hspace : (TypeExpr.named (space ++ ".IThing")).WellNamed) :
    (thing space method).WellTyped where
  type := hspace
  methods _ hm := List.mem_singleton.mp hm ▸ ⟨fun _ hp => absurd hp List.not_mem_nil, wellNamed_void⟩
  properties _ hp := absurd hp List.not_mem_nil
  events _ he := absurd he List.not_mem_nil
  bases _ ht := absurd ht List.not_mem_nil

theorem twins_load : Gives (loadHost "catalog.json" none) twinsSession twins twinsSession := by
  have htext : twinsSession.disk.readText [] "catalog.json" = .ok twins.catalog.toJson := by
    have hplace : twinsSession.disk.place [] "catalog.json" = .ok ["catalog.json"] :=
      Disk.place_of_follow (by decide) (by simp) (by decide) (by decide) rfl
    exact Disk.readText_of_entry (Disk.stored_name (by decide) (by decide) (by decide)) hplace rfl
  have htyped : twins.catalog.WellTyped := by
    refine ⟨fun t ht => (nomatch ht), fun i hi => ?_⟩
    rcases List.mem_cons.mp hi with rfl | hi
    · exact wellTyped_thing (TypeExpr.compact_of_parse (s := "Ns.IThing") (by decide +kernel)).1
    · rw [List.mem_singleton.mp hi]
      exact wellTyped_thing (TypeExpr.compact_of_parse (s := "Other.IThing") (by decide +kernel)).1
  have hcatalog : readCatalog twinsSession.disk [] "catalog.json" = .ok twins.catalog :=
    readCatalog_of_readText htext (Catalog.ofJson_eq_ofParts htyped)
  have hprofile : readProfile twinsSession.disk [] none = .ok twins.profile := by
    have hnone : profilePath? twinsSession.disk [] none = none := by
      have hplace : twinsSession.disk.place [] defaultProfilePath = .ok ["proxygen.toml"] :=
        Disk.place_of_follow (by decide) (by simp [defaultProfilePath]) (by decide) (by decide) rfl
      unfold profilePath? Disk.look?
      rw [hplace]
      rfl
    unfold readProfile
    rw [hnone]
    rfl
  exact gives_loadHost_iff.mpr ⟨hcatalog, hprofile, rfl, rfl⟩

/-- Both files are at the one place, where nothing stands. -/
theorem twins_place {i : Interface} (hi : i ∈ twins.catalog.models) :
    twinsSession.disk.place [] (twins.file "." i) = .ok ["IThingSvc.cs"] := by
  have hfile : twins.file "." i = "./IThingSvc.cs" := by
    rcases List.mem_cons.mp hi with rfl | hi
    · decide +kernel
    · rw [List.mem_singleton.mp hi]
      decide +kernel
  rw [hfile]
  exact Disk.place_of_follow (by decide) (by simp) (by decide) (by decide) rfl

theorem twins_generate : ∃ s', Gives (generate "catalog.json" [] "." none false) twinsSession () s' := by
  obtain ⟨s', hwrite⟩ : ∃ s', Gives (twins.catalog.models.forM (writeProxy twins ".")) twinsSession () s' :=
    exists_forM_writeProxy fun i hi => ⟨_, twins_place hi, rfl⟩
  have hdirectory (d : Disk) : d.makeDirectories [] "." = .ok d := by cbv
  exact ⟨_, gives_generate_iff.mpr
    ⟨twins, twinsSession, twins.catalog.models, twinsSession.disk, s', twins_load, rfl, hdirectory _, hwrite, rfl⟩⟩

/-- A run over both succeeds, so the disk keeps what was written last. -/
theorem generate_keeps_twins : ∃ s', Gives (generate "catalog.json" [] "." none false) twinsSession () s' ∧
    ∃ h targets, h.targets [] = .ok targets ∧ Keeps h "." [] targets s'.disk := by
  obtain ⟨s', hrun⟩ := twins_generate
  obtain ⟨h, -, targets, -, htargets, -, -, hkeeps, -⟩ := generate_keeps "catalog.json" [] "." none twinsSession s' hrun
  exact ⟨s', hrun, h, targets, htargets, hkeeps⟩

/-- **One proxy is lost**, and two are reported. -/
theorem generate_overwrites : ∃ s', Gives (generate "catalog.json" [] "." none false) twinsSession () s' ∧
    s'.terminal.stdout = "Generated IThingSvc ./IThingSvc.cs\nGenerated IThingSvc ./IThingSvc.cs\n" ++
      "2 proxy class(es) written\n" ∧
    ¬ ∀ i ∈ twins.catalog.models, s'.disk.readText [] (twins.file "." i) = .ok (twins.spec i).source := by
  obtain ⟨s', hrun⟩ := twins_generate
  have htargets : twins.targets [] = .ok twins.catalog.models := rfl
  obtain ⟨hstdout, hkeeps⟩ := keeps_of_generate hrun twins_load htargets
  refine ⟨s', hrun, hstdout.trans (by decide +kernel), fun hall => ?_⟩
  -- the members are walked through once, then the sources are compared as texts
  have hA : (twins.spec (thing "Ns" "A")).members = { methods := [⟨"A", [], .void, false⟩] } := by cbv
  have hB : (twins.spec (thing "Other" "B")).members = { methods := [⟨"B", [], .void, false⟩] } := by cbv
  have hne : (twins.spec (thing "Ns" "A")).source ≠ (twins.spec (thing "Other" "B")).source := by
    unfold ProxySpec.source ProxySpec.synthesize
    rw [hA, hB]
    decide +kernel
  have hfirst : thing "Ns" "A" ∈ twins.catalog.models := List.mem_cons_self
  have hsecond : thing "Other" "B" ∈ twins.catalog.models := List.mem_cons_of_mem _ List.mem_cons_self
  have hletters : Naming.letterName (thing "Ns" "A").type.simpleName =
      Naming.letterName (thing "Other" "B").type.simpleName := by decide +kernel
  have hplace := (hkeeps.place_eq_iff (by decide) hfirst).mpr hletters
  exact hne (hkeeps.all_iff.mp hall _ hfirst _ hsecond hplace)

end Run

end BoundaryProxy.CommandLine
