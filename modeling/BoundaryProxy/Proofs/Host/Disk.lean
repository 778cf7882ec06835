import BoundaryProxy.Host.Disk
import BoundaryProxy.Proofs.Text.Utf8
import Mathlib.Tactic.SplitIfs

/-!
# `Proofs.Host.Disk` — what a written file changes

A path is followed through directories alone, so two disks with directories at the same places lead every path to the
same place (`place_of_sameDirectories`). Writing a file changes what stands at the one place its path leads to
(`wrote_of_write`), and no directory stands there: a path leads after any number of written files to where it led before
them, and at its end is what was written there last (`Wrote.readText`, `Wrote.readText_of_ne`).

A path must lead to a file that the disk keeps. `Stored` says so of the path alone: its last name is neither one of
those that lead elsewhere nor the name of a device. Every path that ends in the extension of a source file is one
(`stored_extension`). Of a path that was written to, it is enough that no device took the text (`readText_of_write`).
-/

namespace BoundaryProxy

namespace Host

namespace Disk

variable {d d' : Disk} {p q here : Place} {e : Entry} {path name : String} {ns : List String}
  {content : List UInt8}

/-! ## What stands at a place -/

theorem lookup_map_replace (p q : Place) (e : Entry) (entries : List (Place × Entry)) :
    (entries.map fun (r, old) => if r = p then (r, e) else (r, old)).lookup q =
      if q = p then (entries.lookup q).map fun _ => e else entries.lookup q := by
  induction entries with
  | nil => simp
  | cons entry entries ih =>
    obtain ⟨r, old⟩ := entry
    by_cases hq : q = r
    · subst hq
      by_cases hp : q = p <;> simp [hp]
    · have hne : (q == r) = false := beq_false_of_ne hq
      by_cases hp : r = p
      · simp only [List.map_cons, if_pos hp, List.lookup_cons, hne]
        exact ih
      · simp only [List.map_cons, if_neg hp, List.lookup_cons, hne]
        exact ih

theorem lookup_isSome_of_any {entries : List (Place × Entry)} (h : entries.any (·.1 = p)) :
    ∃ old, entries.lookup p = some old := by
  obtain ⟨⟨r, old⟩, hmem, hr⟩ := List.any_eq_true.mp h
  have hr : r = p := of_decide_eq_true hr
  exact Option.isSome_iff_exists.mp (List.lookup_isSome_iff.mpr ⟨(r, old), hmem, beq_iff_eq.mpr hr.symm⟩)

/-- Whatever stood at a place, what is put there stands there, and nothing else changes. -/
theorem at_put (hp : p ≠ []) (q : Place) : entry? (d.put p e) q = if q = p then some e else d.entry? q := by
  cases q with
  | nil => exact (if_neg hp.symm).symm
  | cons first rest =>
    show (d.put p e).entries.lookup (first :: rest) = if _ then some e else d.entries.lookup (first :: rest)
    unfold put
    -- what stands at the place is replaced, or else the entry is the last
    by_cases hany : d.entries.any (·.1 = p)
    · rw [if_pos hany, lookup_map_replace]
      by_cases hq : first :: rest = p
      · obtain ⟨old, hold⟩ := lookup_isSome_of_any hany
        rw [if_pos hq, if_pos hq, hq, hold, Option.map_some]
      · rw [if_neg hq, if_neg hq]
    · rw [if_neg hany]
      show (d.entries ++ [(p, e)]).lookup (first :: rest) = _
      rw [List.lookup_append]
      by_cases hq : first :: rest = p
      · have hnone : d.entries.lookup (first :: rest) = none := by
          refine List.lookup_eq_none_iff.mpr fun entry hmem => ?_
          rw [hq]
          refine bne_iff_ne.mpr fun heq => hany (List.any_eq_true.mpr ⟨entry, hmem, decide_eq_true heq.symm⟩)
        rw [if_pos hq, hnone, Option.none_or, List.lookup_cons, beq_iff_eq.mpr hq]
      · rw [if_neg hq, List.lookup_cons, beq_false_of_ne hq, List.lookup_nil, Option.or_none]

/-! ## Where paths lead -/

/-- Whether directories stand at the same places on two disks. -/
def SameDirectories (d d' : Disk) : Prop :=
  ∀ p, d'.isDirectory p = d.isDirectory p

theorem sameDirectories_of_kept (h : ∀ p, d'.entry? p = d.entry? p) : d.SameDirectories d' := by
  intro p
  unfold isDirectory
  rw [h p]

/-- The place that a name leads to from another. -/
def nextPlace (p : Place) (name : String) : Place :=
  if name == "." then p else if name == ".." then p.dropLast else p ++ [name]

theorem nextPlace_of_not_dots (hdots : isDots name = false) (p : Place) : nextPlace p name = p ++ [name] := by
  obtain ⟨hdot, hdots⟩ := Bool.or_eq_false_iff.mp hdots
  unfold nextPlace
  rw [hdot, hdots]
  rfl

/-- A name is followed from a directory, and what else stands on the disk does not count. -/
theorem follow_cons_eq_ok_iff {rest : List String} :
    d.follow p (name :: rest) = .ok q ↔
      Device.at? p = none ∧ d.isDirectory p ∧ (isDots name ∨ name.utf8ByteSize ≤ 255) ∧
        d.follow (nextPlace p name) rest = .ok q := by
  rw [follow]
  unfold isDirectory isDots nextPlace
  cases hdevice : Device.at? p with
  | some device => simp
  | none =>
    cases hentry : d.entry? p with
    | none => simp
    | some e =>
      cases e with
      | file content executable => simp
      | directory =>
        by_cases hdot : name == "."
        · simp [hdot]
        · by_cases hdots : name == ".."
          · simp [hdot, hdots]
          · by_cases hlong : 255 < name.utf8ByteSize
            · simp [hdot, hdots, hlong, Nat.not_le_of_lt hlong]
            · simp [hdot, hdots, hlong, Nat.le_of_not_lt hlong]

theorem follow_of_sameDirectories (h : d.SameDirectories d') (hp : d.follow p ns = .ok q) :
    d'.follow p ns = .ok q := by
  -- the place from which names are followed moves on, the two disks do not
  induction ns generalizing p with
  | nil => exact hp
  | cons name rest ih =>
    obtain ⟨hdevice, hdirectory, hname, hrest⟩ := follow_cons_eq_ok_iff.mp hp
    exact follow_cons_eq_ok_iff.mpr ⟨hdevice, (h p).trans hdirectory, hname, ih hrest⟩

/-- Names that end in one of their own lead to a place of this name in a directory. -/
theorem follow_getLast (hlast : ns.getLast? = some name) (hdots : isDots name = false)
    (hp : d.follow p ns = .ok q) : ∃ around, d.isDirectory around ∧ q = around ++ [name] := by
  induction ns generalizing p with
  | nil => cases hlast
  | cons first rest ih =>
    obtain ⟨-, hdirectory, -, hrest⟩ := follow_cons_eq_ok_iff.mp hp
    cases rest with
    | nil =>
      obtain rfl : first = name := Option.some.inj hlast
      rw [nextPlace_of_not_dots hdots] at hrest
      exact ⟨p, hdirectory, (Except.ok.inj hrest).symm⟩
    | cons second rest => exact ih (List.getLast?_cons_cons.symm.trans hlast) hrest

/-- Whether a path leads to a file that the disk keeps, if it leads to any. -/
structure Stored (path : String) : Prop where
  slash : endsInSlash path = false
  last : ∃ name, (names path).getLast? = some name ∧ isDots name = false ∧
    ∀ around, Device.at? (around ++ [name]) = none

theorem place_eq (hpath : endsInSlash path = false) :
    d.place here path = (route here path).bind fun r => d.follow r.1 r.2 := by
  unfold place
  cases hroute : route here path with
  | error fault => rfl
  | ok r =>
    show (d.follow r.1 r.2 >>= fun p => _) = d.follow r.1 r.2
    cases hfollow : d.follow r.1 r.2 with
    | error fault => rfl
    | ok p =>
      rw [hpath]
      rfl

theorem route_eq_ok_iff {r : Place × List String} :
    route here path = .ok r ↔ path.contains '\x00' = false ∧ path ≠ "" ∧ path.utf8ByteSize < 4096 ∧
      r = (if isAbsolute path then [] else here, names path) := by
  have hempty : path.isEmpty = false ↔ path ≠ "" := by
    rw [Bool.eq_false_iff, ne_eq, String.isEmpty_iff]
  unfold route
  cases hnul : path.contains '\x00' with
  | true => simp
  | false =>
    cases hne : path.isEmpty with
    | true => simp [← hempty, hne]
    | false =>
      rw [if_neg Bool.false_ne_true, if_neg Bool.false_ne_true]
      by_cases hlong : 4096 ≤ path.utf8ByteSize
      · rw [if_pos hlong]
        exact ⟨fun h => (nomatch h), fun ⟨_, _, hshort, _⟩ => absurd hshort (Nat.not_lt_of_le hlong)⟩
      · rw [if_neg hlong]
        refine ⟨fun h => ⟨rfl, hempty.mp hne, Nat.lt_of_not_le hlong, (Except.ok.inj h).symm⟩, ?_⟩
        rintro ⟨-, -, -, rfl⟩
        rfl

/-- Where a path leads is found by following the names in it from where it begins. -/
theorem follow_of_place (hpath : endsInSlash path = false) (hp : d.place here path = .ok p) :
    route here path = .ok (if isAbsolute path then [] else here, names path) ∧
      d.follow (if isAbsolute path then [] else here) (names path) = .ok p := by
  rw [place_eq hpath] at hp
  cases hroute : route here path with
  | error fault =>
    rw [hroute] at hp
    cases hp
  | ok r =>
    rw [hroute] at hp
    obtain ⟨-, -, -, rfl⟩ := route_eq_ok_iff.mp hroute
    exact ⟨rfl, hp⟩

/-- A path that is not refused leads where its names are followed to. -/
theorem place_of_follow (hslash : endsInSlash path = false) (hnul : path.contains '\x00' = false) (hne : path ≠ "")
    (hlong : path.utf8ByteSize < 4096) (hp : d.follow (if isAbsolute path then [] else here) (names path) = .ok p) :
    d.place here path = .ok p := by
  rw [place_eq hslash, route_eq_ok_iff.mpr ⟨hnul, hne, hlong, rfl⟩]
  exact hp

/-- A path leads to the same place whatever files stand on the disk. -/
theorem place_of_sameDirectories (h : d.SameDirectories d') (hpath : endsInSlash path = false)
    (hp : d.place here path = .ok p) : d'.place here path = .ok p := by
  obtain ⟨hroute, hfollow⟩ := follow_of_place hpath hp
  rw [place_eq hpath, hroute]
  exact follow_of_sameDirectories h hfollow

/-! ## Writing -/

/-- The disk after a file was written at a place where no directory stood. -/
structure Wrote (d : Disk) (p : Place) (content : List UInt8) (d' : Disk) : Prop where
  free : d.isDirectory p = false
  holds : ∃ executable, d'.entry? p = some (.file content executable)
  kept : ∀ q, q ≠ p → d'.entry? q = d.entry? q

theorem Wrote.sameDirectories (h : Wrote d p content d') : d.SameDirectories d' := by
  intro q
  by_cases hq : q = p
  · obtain ⟨executable, hentry⟩ := h.holds
    have hfile : d'.isDirectory p = false := by
      unfold isDirectory
      rw [hentry]
      rfl
    rw [hq, hfile, h.free]
  · unfold isDirectory
    rw [h.kept q hq]

/-- No path leads elsewhere after a file was written. -/
theorem Wrote.place (h : Wrote d p content d') (hpath : Stored path) (hq : d.place here path = .ok q) :
    d'.place here path = .ok q :=
  place_of_sameDirectories h.sameDirectories hpath.slash hq

theorem wrote_put (hp : p ≠ []) (hfree : d.isDirectory p = false) (executable : Bool) :
    Wrote d p content (d.put p (.file content executable)) where
  free := hfree
  holds := ⟨executable, (at_put hp p).trans (if_pos rfl)⟩
  kept q hq := (at_put hp q).trans (if_neg hq)

/-- The place of a file that the disk keeps is no device's, and a directory is around it. -/
theorem around_of_stored (hpath : Stored path) (hp : d.place here path = .ok p) :
    p ≠ [] ∧ Device.at? p = none ∧ d.isDirectory p.dropLast := by
  obtain ⟨name, hlast, hdots, hdevice⟩ := hpath.last
  obtain ⟨-, hfollow⟩ := follow_of_place hpath.slash hp
  obtain ⟨around, hdirectory, rfl⟩ := follow_getLast hlast hdots hfollow
  exact ⟨List.append_ne_nil_of_right_ne_nil _ (List.cons_ne_nil _ _), hdevice around,
    List.dropLast_concat.symm ▸ hdirectory⟩

theorem device?_of_stored (hpath : Stored path) (hp : d.place here path = .ok p) : d.device? here path = none := by
  unfold device?
  rw [hp]
  exact (around_of_stored hpath hp).2.1

theorem writePlace_eq_ok_iff (hpath : Stored path) :
    d.writePlace here path = .ok p ↔ d.place here path = .ok p ∧ d.isDirectory p = false := by
  obtain ⟨name, hlast, hdots, -⟩ := hpath.last
  have hplace : d.place here path = (route here path).bind fun r => d.follow r.1 r.2 := place_eq hpath.slash
  -- the last name is one of its own, so only a directory at the end is refused
  have hwrite : d.writePlace here path =
      (d.place here path).bind fun q => if d.isDirectory q then .error .isDirectory else .ok q := by
    rw [hplace]
    unfold writePlace newPlace
    cases hroute : route here path with
    | error fault => rfl
    | ok r =>
      obtain ⟨-, -, -, rfl⟩ := route_eq_ok_iff.mp hroute
      show (d.follow _ (names path) >>= _) >>= _ = (d.follow _ (names path)).bind _
      cases d.follow (if isAbsolute path then [] else here) (names path) with
      | error fault => rfl
      | ok q =>
        simp only [hlast, hdots, hpath.slash, bind, Except.bind, pure, Except.pure, Bool.false_or,
          Bool.false_eq_true, if_false]
  rw [hwrite]
  cases d.place here path with
  | error fault => exact ⟨fun h => (nomatch h), fun h => (nomatch h.1)⟩
  | ok q =>
    show (if d.isDirectory q then Except.error IoFault.isDirectory else Except.ok q) = Except.ok p ↔ _
    by_cases hdirectory : d.isDirectory q
    · rw [if_pos hdirectory]
      refine ⟨fun h => (nomatch h), fun ⟨hq, hfree⟩ => ?_⟩
      rw [Except.ok.inj hq, hfree] at hdirectory
      cases hdirectory
    · rw [if_neg hdirectory]
      refine ⟨fun h => ⟨h, ?_⟩, fun h => h.1⟩
      exact Except.ok.inj h ▸ Bool.eq_false_iff.mpr hdirectory

/-- In a directory a file is put, where no directory stands. -/
theorem exists_writeAt (hroot : p ≠ []) (hdevice : Device.at? p = none) (haround : d.isDirectory p.dropLast)
    (hfree : d.isDirectory p = false) (content : List UInt8) :
    ∃ d', d.writeAt p content = .ok d' ∧ Wrote d p content d' := by
  unfold writeAt
  rw [hdevice]
  -- a new file needs the directory around it, a file that is there keeps its mode
  cases hentry : d.entry? p with
  | none => exact ⟨_, if_pos haround, wrote_put hroot hfree false⟩
  | some e =>
    cases e with
    | directory =>
      unfold isDirectory at hfree
      rw [hentry] at hfree
      cases hfree
    | file old executable => exact ⟨_, rfl, wrote_put hroot hfree executable⟩

theorem writeAt_of_stored (hpath : Stored path) (hp : d.place here path = .ok p) (hfree : d.isDirectory p = false)
    (content : List UInt8) : ∃ d', d.writeAt p content = .ok d' ∧ Wrote d p content d' := by
  obtain ⟨hroot, hdevice, haround⟩ := around_of_stored hpath hp
  exact exists_writeAt hroot hdevice haround hfree content

/-- **Writing a file** puts it at the place its path leads to and changes nothing else. -/
theorem wrote_of_write (hpath : Stored path) (h : d.write here path content = .ok d') :
    ∃ p, d.place here path = .ok p ∧ Wrote d p content d' := by
  unfold write at h
  cases hplace : d.writePlace here path with
  | error fault =>
    rw [hplace] at h
    cases h
  | ok p =>
    obtain ⟨hp, hfree⟩ := (writePlace_eq_ok_iff hpath).mp hplace
    obtain ⟨d₁, hd₁, hwrote⟩ := writeAt_of_stored hpath hp hfree content
    rw [hplace] at h
    obtain rfl : d₁ = d' := Except.ok.inj (hd₁.symm.trans h)
    exact ⟨p, hp, hwrote⟩

/-- A file is written unless a directory stands where its path leads to. -/
theorem exists_write (hpath : Stored path) (hp : d.place here path = .ok p) (hfree : d.isDirectory p = false)
    (content : List UInt8) : ∃ d', d.write here path content = .ok d' ∧ Wrote d p content d' := by
  obtain ⟨d', hd', hwrote⟩ := writeAt_of_stored hpath hp hfree content
  refine ⟨d', ?_, hwrote⟩
  unfold write
  rw [(writePlace_eq_ok_iff hpath).mpr ⟨hp, hfree⟩]
  exact hd'

/-- Whatever a path is, a file is written only where it leads to, in a directory and not in place of one. -/
theorem of_writePlace (h : d.writePlace here path = .ok p) : endsInSlash path = false ∧ d.place here path = .ok p ∧
    d.isDirectory p = false ∧ p ≠ [] ∧ d.isDirectory p.dropLast := by
  unfold writePlace newPlace at h
  cases hroute : route here path with
  | error fault =>
    rw [hroute] at h
    cases h
  | ok r =>
    cases hfollow : d.follow r.1 r.2 with
    | error fault =>
      simp only [hroute, hfollow, bind, Except.bind] at h
      cases h
    | ok q =>
      cases hlast : r.2.getLast? with
      | none =>
        simp only [hroute, hfollow, hlast, bind, Except.bind, pure, Except.pure] at h
        cases h
      | some name =>
        simp only [hroute, hfollow, hlast, bind, Except.bind, pure, Except.pure] at h
        -- of the three ways to refuse the path none was taken
        split_ifs at h with hdots
        dsimp only at h
        split_ifs at h with hrefused
        · obtain rfl := Except.ok.inj h
          obtain ⟨hslash, hfree⟩ := Bool.or_eq_false_iff.mp (Bool.eq_false_iff.mpr hrefused)
          obtain ⟨around, haround, rfl⟩ := follow_getLast hlast (Bool.eq_false_iff.mpr hdots) hfollow
          refine ⟨hslash, ?_, hfree, List.append_ne_nil_of_right_ne_nil _ (List.cons_ne_nil _ _), ?_⟩
          · rw [place_eq hslash, hroute]
            exact hfollow
          · rwa [List.dropLast_concat]

/-- Whatever a path is, a file is written at the place it leads to, unless a device stands there. -/
theorem wrote_of_write_kept (hdevice : d.device? here path = none) (h : d.write here path content = .ok d') :
    endsInSlash path = false ∧ ∃ p, d.place here path = .ok p ∧ Device.at? p = none ∧ Wrote d p content d' := by
  cases hplace : d.writePlace here path with
  | error fault =>
    rw [write, hplace] at h
    cases h
  | ok p =>
    obtain ⟨hslash, hp, hfree, hroot, haround⟩ := of_writePlace hplace
    have hkept : Device.at? p = none := by
      unfold device? at hdevice
      rwa [hp] at hdevice
    obtain ⟨d₁, hd₁, hwrote⟩ := exists_writeAt hroot hkept haround hfree content
    rw [write, hplace] at h
    obtain rfl : d₁ = d' := Except.ok.inj (hd₁.symm.trans h)
    exact ⟨hslash, p, hp, hkept, hwrote⟩

/-! ## Reading -/

theorem readText_of_read {s : String} (h : d.read here path = .ok (Text.toUtf8 s)) : d.readText here path = .ok s := by
  unfold readText
  rw [h]
  simp only [bind, Except.bind, Text.ofUtf8?_toUtf8]
  rfl

theorem readText_of_entry {s : String} {executable : Bool} (hpath : Stored path) (hp : d.place here path = .ok p)
    (hentry : d.entry? p = some (.file (Text.toUtf8 s) executable)) : d.readText here path = .ok s := by
  refine readText_of_read ?_
  unfold read
  rw [hp]
  show d.readAt p = _
  unfold readAt
  rw [(around_of_stored hpath hp).2.1, hentry]

/-- Bytes that were written are read. -/
theorem Wrote.read (h : Wrote d p content d') (hslash : endsInSlash path = false) (hp : d.place here path = .ok p)
    (hdevice : Device.at? p = none) : d'.read here path = .ok content := by
  obtain ⟨executable, hentry⟩ := h.holds
  unfold Disk.read
  rw [place_of_sameDirectories h.sameDirectories hslash hp]
  show d'.readAt p = _
  unfold readAt
  rw [hdevice, hentry]

/-- A text that was written is read. -/
theorem Wrote.readText {s : String} (h : Wrote d p (Text.toUtf8 s) d') (hpath : Stored path)
    (hp : d.place here path = .ok p) : d'.readText here path = .ok s := by
  obtain ⟨executable, hentry⟩ := h.holds
  exact readText_of_entry hpath (h.place hpath hp) hentry

/-- Whatever a path is, a text that was written there is read from it, unless a device took the text. -/
theorem readText_of_write {s : String} (hdevice : d.device? here path = none)
    (h : d.write here path (Text.toUtf8 s) = .ok d') : d'.readText here path = .ok s := by
  obtain ⟨hslash, p, hp, hkept, hwrote⟩ := wrote_of_write_kept hdevice h
  exact readText_of_read (hwrote.read hslash hp hkept)

/-- What is read elsewhere stays as it was. -/
theorem Wrote.readText_of_ne (h : Wrote d p content d') (hpath : Stored path) (hq : d.place here path = .ok q)
    (hne : q ≠ p) : d'.readText here path = d.readText here path := by
  have hread : d'.read here path = d.read here path := by
    unfold Disk.read
    rw [hq, h.place hpath hq]
    show d'.readAt q = d.readAt q
    unfold readAt
    rw [h.kept q hne]
  unfold Disk.readText
  rw [hread]

/-! ## Names in paths -/

/-- The names on both sides of a slash. -/
theorem names_of_slash {before after : List Char} (h : path.toList = before ++ '/' :: after) :
    names path = names (String.ofList before) ++ names (String.ofList after) := by
  unfold names
  rw [h, List.splitOn_append_cons_self, List.filter_append, List.map_append, String.toList_ofList,
    String.toList_ofList]

/-- A text with no slash in it is one name. -/
theorem names_of_no_slash (hslash : '/' ∉ path.toList) (hne : path ≠ "") : names path = [path] := by
  have hlist : path.toList ≠ [] := fun h => hne (String.toList_inj.mp h)
  unfold names
  rw [List.splitOn_eq_singleton hslash, List.filter_cons_of_pos (by simpa using hlist), List.filter_nil,
    List.map_cons, List.map_nil, String.ofList_toList]

/-- Whether a name is that of one file or directory. -/
structure OneName (name : String) : Prop where
  notEmpty : name ≠ ""
  noSlash : '/' ∉ name.toList
  noDots : isDots name = false

instance (name : String) : Decidable (OneName name) :=
  decidable_of_iff (name ≠ "" ∧ '/' ∉ name.toList ∧ isDots name = false)
    ⟨fun h => ⟨h.1, h.2.1, h.2.2⟩, fun h => ⟨h.notEmpty, h.noSlash, h.noDots⟩⟩

theorem isAbsolute_of_no_slash (hslash : '/' ∉ path.toList) : isAbsolute path = false := by
  unfold isAbsolute
  cases hlist : path.toList with
  | nil => rfl
  | cons c rest =>
    have hc : c ≠ '/' := fun h => hslash (hlist ▸ h ▸ List.mem_cons_self)
    exact beq_false_of_ne fun h => hc (Option.some.inj h)

/-- A file below a directory: how the path begins and which names are in it. -/
theorem join_of_no_slash (base : String) (hslash : '/' ∉ name.toList) (hne : name ≠ "") :
    isAbsolute (join base name) = isAbsolute base ∧ names (join base name) = names base ++ [name] := by
  have hname : names name = [name] := names_of_no_slash hslash hne
  unfold join
  rw [isAbsolute_of_no_slash hslash, Bool.false_or]
  cases hbase : base.isEmpty with
  | true =>
    obtain rfl : base = "" := String.isEmpty_iff.mp hbase
    exact ⟨isAbsolute_of_no_slash hslash, hname⟩
  | false =>
    have hlist : base.toList ≠ [] := fun h => by simp_all
    have habsolute (after : List Char) : (base.toList ++ after).head? = base.toList.head? :=
      by rw [List.head?_append, List.head?_eq_some_head hlist, Option.some_or]
    -- the slash between the two is the directory's own or is put there
    cases hend : endsInSlash base with
    | true =>
      obtain ⟨before, hbefore⟩ := List.getLast?_eq_some_iff.mp (beq_iff_eq.mp hend)
      have hpath : (base ++ name).toList = before ++ '/' :: name.toList := by
        rw [String.toList_append, hbefore, List.append_assoc]
        rfl
      refine ⟨?_, ?_⟩
      · simp [isAbsolute, habsolute]
      · simp only [Bool.false_eq_true, if_false, if_true]
        have hempty : names (String.ofList []) = [] := rfl
        rw [names_of_slash hpath, names_of_slash hbefore, String.ofList_toList, hname, hempty, List.append_nil]
    | false =>
      have hpath : (base ++ "/" ++ name).toList = base.toList ++ '/' :: name.toList := by
        rw [String.toList_append, String.toList_append, List.append_assoc]
        rfl
      refine ⟨?_, ?_⟩
      · simp [isAbsolute, habsolute]
      · simp only [Bool.false_eq_true, if_false]
        rw [names_of_slash hpath, String.ofList_toList, String.ofList_toList, hname]

theorem follow_append {before after : List String} (h : d.follow p (before ++ after) = .ok q) :
    ∃ r, d.follow p before = .ok r ∧ d.follow r after = .ok q := by
  induction before generalizing p with
  | nil => exact ⟨p, rfl, h⟩
  | cons name rest ih =>
    obtain ⟨hdevice, hdirectory, hname, hrest⟩ := follow_cons_eq_ok_iff.mp h
    obtain ⟨r, hr, hafter⟩ := ih hrest
    exact ⟨r, follow_cons_eq_ok_iff.mpr ⟨hdevice, hdirectory, hname, hr⟩, hafter⟩

/-! ## Paths of source files -/

/-- The extension of a source file. -/
def sourceExtension : String :=
  ".cs"

theorem getLast?_extension (stem : String) : (stem ++ sourceExtension).toList.getLast? = some 's' := by
  rw [String.toList_append, List.getLast?_append]
  rfl

theorem extension_ne {stem : String} (h : name.toList.getLast? ≠ some 's') : stem ++ sourceExtension ≠ name :=
  fun heq => h (heq ▸ getLast?_extension stem)

/-- The last name of a path that ends in the extension ends in it too. -/
theorem names_of_extension (stem : String) :
    ∃ around base, names (stem ++ sourceExtension) = around ++ [base ++ sourceExtension] := by
  by_cases hslash : '/' ∈ stem.toList
  · -- the last slash is the first one from behind
    obtain ⟨after, before, hreverse, hafter⟩ := List.eq_append_cons_of_mem (List.mem_reverse.mpr hslash)
    have hstem : stem.toList = before.reverse ++ '/' :: after.reverse := by
      rw [← List.reverse_reverse stem.toList, hreverse]
      simp
    refine ⟨names (String.ofList before.reverse), String.ofList after.reverse, ?_⟩
    have hpath : (stem ++ sourceExtension).toList =
        before.reverse ++ '/' :: (after.reverse ++ sourceExtension.toList) := by
      rw [String.toList_append, hstem, List.append_assoc, List.cons_append]
    rw [names_of_slash hpath, String.ofList_append, String.ofList_toList]
    have hname : '/' ∉ (String.ofList after.reverse ++ sourceExtension).toList := by
      simpa [sourceExtension] using hafter
    rw [names_of_no_slash hname (extension_ne (by decide))]
  · have hname : '/' ∉ (stem ++ sourceExtension).toList := by
      simpa [sourceExtension] using hslash
    exact ⟨[], stem, names_of_no_slash hname (extension_ne (by decide))⟩

/-- Devices are known by their names: those that have one, and the digits of descriptors. -/
theorem device?_concat (hname : Device.ofName? name = none) (hlength : name.toList.length ≠ 1) (around : Place) :
    Device.at? (around ++ [name]) = none := by
  have hlast (place : Place) {last : String} (h : around ++ [name] = place ++ [last]) : name = last :=
    (List.cons.inj (List.append_inj_right' h rfl)).1
  unfold Device.at?
  split
  · rename_i last heq
    obtain rfl : name = last := hlast ["dev"] heq
    exact hname
  · rename_i last heq
    obtain rfl : name = last := hlast ["dev", "fd"] heq
    split
    · rename_i c hc
      exact absurd (congrArg List.length hc) hlength
    · rfl
  · rfl

/-- A name of its own that no device has leads to a file that the disk keeps. -/
theorem stored_name (hname : OneName name) (hdevice : Device.ofName? name = none) (hlength : name.toList.length ≠ 1) :
    Stored name where
  slash := beq_false_of_ne fun hlast => hname.noSlash (List.mem_of_getLast? hlast)
  last := by
    rw [names_of_no_slash hname.noSlash hname.notEmpty]
    exact ⟨name, rfl, hname.noDots, device?_concat hdevice hlength⟩

/-- No device has the extension in its name. -/
theorem device?_extension (around : Place) (stem : String) :
    Device.at? (around ++ [stem ++ sourceExtension]) = none := by
  refine device?_concat ?_ ?_ around
  · unfold Device.ofName?
    split <;> rename_i hname
    all_goals first | rfl | exact absurd hname (extension_ne (by decide))
  · simp [sourceExtension]

theorem isDots_extension (stem : String) : isDots (stem ++ sourceExtension) = false := by
  have hdot : stem ++ sourceExtension ≠ "." := extension_ne (by decide)
  have hdots : stem ++ sourceExtension ≠ ".." := extension_ne (by decide)
  unfold isDots
  rw [beq_false_of_ne hdot, beq_false_of_ne hdots]
  rfl

/-- **A path of a source file** leads to a file that the disk keeps, whatever directory it is below. -/
theorem stored_extension (stem : String) : Stored (stem ++ sourceExtension) where
  slash := by
    unfold endsInSlash
    rw [getLast?_extension]
    rfl
  last := by
    obtain ⟨around, base, hnames⟩ := names_of_extension stem
    refine ⟨base ++ sourceExtension, ?_, isDots_extension base, fun p => device?_extension p base⟩
    rw [hnames, List.getLast?_concat]

theorem stored_join (directory stem : String) : Stored (join directory (stem ++ sourceExtension)) := by
  unfold join
  split_ifs
  · exact stored_extension stem
  · exact String.append_assoc ▸ stored_extension (directory ++ stem)
  · exact String.append_assoc ▸ stored_extension (directory ++ "/" ++ stem)

/-- A source file below a directory is at the place of its name in this directory. -/
theorem place_source {directory stem : String} (hslash : '/' ∉ stem.toList)
    (hp : d.place here (join directory (stem ++ sourceExtension)) = .ok p) :
    ∃ around, d.follow (if isAbsolute directory then [] else here) (names directory) = .ok around ∧
      p = around ++ [stem ++ sourceExtension] := by
  have hname : '/' ∉ (stem ++ sourceExtension).toList := by simpa [sourceExtension] using hslash
  obtain ⟨habsolute, hnames⟩ := join_of_no_slash directory hname (extension_ne (by decide))
  obtain ⟨-, hfollow⟩ := follow_of_place (stored_join directory stem).slash hp
  rw [habsolute, hnames] at hfollow
  obtain ⟨around, haround, hlast⟩ := follow_append hfollow
  obtain ⟨-, -, -, hnext⟩ := follow_cons_eq_ok_iff.mp hlast
  rw [nextPlace_of_not_dots (isDots_extension stem)] at hnext
  exact ⟨around, haround, (Except.ok.inj hnext).symm⟩

/-- Source files of different names below one directory are at different places. -/
theorem stem_eq_of_place_eq {directory stem stem' : String} (hslash : '/' ∉ stem.toList)
    (hslash' : '/' ∉ stem'.toList) (hp : d.place here (join directory (stem ++ sourceExtension)) = .ok p)
    (hp' : d.place here (join directory (stem' ++ sourceExtension)) = .ok p) : stem = stem' := by
  obtain ⟨around, haround, rfl⟩ := place_source hslash hp
  obtain ⟨around', haround', heq⟩ := place_source hslash' hp'
  obtain rfl : around = around' := Except.ok.inj (haround.symm.trans haround')
  have hname : stem ++ sourceExtension = stem' ++ sourceExtension :=
    (List.cons.inj (List.append_cancel_left heq)).1
  exact (String.append_left_inj _).mp hname

end Disk

end Host

end BoundaryProxy
