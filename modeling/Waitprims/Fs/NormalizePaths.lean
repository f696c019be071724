import Mathlib
import Waitprims.Fs.Bind

/-! # The paths of an event

The paths of a backend event are taken to their locations: where a path exists its canonical path,
and where it is gone its canonical parent with its last name. An event keeps the locations inside
the root, spelled from the root, in order and without repetitions; at an exact leaf it keeps only
that leaf. One location outside the root, or none at all, refuses the event.

* **`Location`** — where a path is.
* **`Names`** — the location an entry of an event spells.
* **`names_iff`** — an entry spells its location and no other one.
* **`normalizePaths_spec`** — which events are refused, and the entries of the others. -/

namespace Waitprims

namespace Fs

variable {σ : Type}

/-! ## Paths by their names -/

/-- A name as it stands between two slashes. -/
def IsName (name : String) : Prop := name ≠ "" ∧ '/' ∉ name.toList ∧ name ≠ "."

instance : DecidablePred IsName := fun _ => inferInstanceAs (Decidable (_ ∧ _ ∧ _))

namespace FsPath

/-- A path as it is read from a text: each component is a name. -/
def Ok (path : FsPath) : Prop := ∀ name ∈ path.components, IsName name

/-- A canonical path is absolute and goes up nowhere. -/
structure IsCanonical (path : FsPath) : Prop where
  absolute : path.absolute = true
  names : ∀ name ∈ path.components, IsName name ∧ name ≠ ".."

/-- The text of an absolute path: each name behind a slash, and nothing for `/` itself. -/
def chars (path : FsPath) : List Char := path.components.flatMap fun name => '/' :: name.toList

/-- A reported path, taken from the root unless it is absolute. -/
def under (root path : FsPath) : FsPath := if path.absolute then path else root.join path

end FsPath

/-- The paths a filesystem canonicalizes to are canonical, and stay. -/
structure Env.CanonicalPaths (env : Env σ) (host : σ) : Prop where
  canonical : ∀ path c, env.canonicalize host path = some c → c.IsCanonical
  fixed : ∀ path c, env.canonicalize host path = some c → env.canonicalize host c = some c

/-! ## Locations and entries -/

/-- Where a path is: its canonical path if it exists, otherwise its last name under its canonical
parent. -/
inductive Location (env : Env σ) (host : σ) (path : FsPath) : FsPath → Prop
  | found {loc : FsPath} (h : env.pathExists host path = true)
    (hloc : env.canonicalize host path = some loc) : Location env host path loc
  | gone {parent canonical : FsPath} {name : String} (h : env.pathExists host path = false)
    (hparent : path.parent = some parent)
    (hcanonical : env.canonicalize host parent = some canonical)
    (hname : path.fileName = some name) :
    Location env host path (canonical.join ⟨false, [name]⟩)

/-- An entry spells a location: `.` the root, any other entry the location `root/entry`. -/
def Names (root : FsPath) (entry : String) (loc : FsPath) : Prop :=
  if entry = "." then loc = root else loc.chars = root.chars ++ '/' :: entry.toList

/-- A reported path, or the location it has, is the target: the path that was bound, or the location
that path had then. -/
def Target.Is (target : Target) (root path loc : FsPath) : Prop :=
  path = root.join target.relative ∨ loc = root.join target.relative ∨
    loc = target.canonicalCandidate

/-- The location of a path is computed. -/
theorem location_iff {env : Env σ} {host : σ} {path loc : FsPath} :
    Location env host path loc ↔ safeAbsolute env host path = some loc := by
  unfold safeAbsolute
  constructor
  · intro h
    cases h with
    | found h hloc => rw [if_pos h, hloc]
    | gone h hparent hcanonical hname =>
      rw [if_neg (by rw [h]; decide), hparent]
      simp only [Option.bind_eq_bind, Option.bind_some, hcanonical, hname]
      rfl
  · intro h
    split at h
    · next hexists => exact .found hexists h
    · next hgone =>
      simp only [Option.bind_eq_bind, Option.bind_eq_some_iff] at h
      obtain ⟨parent, hparent, canonical, hcanonical, name, hname, hloc⟩ := h
      obtain rfl := Option.some.inj hloc
      exact .gone (by simpa using hgone) hparent hcanonical hname

/-- A location is canonical. -/
theorem Location.isCanonical {env : Env σ} {host : σ} (henv : env.CanonicalPaths host)
    {path loc : FsPath} (hpath : path.Ok) (h : Location env host path loc) : loc.IsCanonical := by
  cases h with
  | found _ hloc => exact henv.canonical _ _ hloc
  | @gone parent canonical name _ _ hcanonical hname =>
    obtain ⟨habsolute, hnames⟩ := henv.canonical _ _ hcanonical
    -- the last name is one of the path's, and does not go up
    have hlast : IsName name ∧ name ≠ ".." := by
      unfold FsPath.fileName at hname
      rw [Option.bind_eq_some_iff] at hname
      obtain ⟨last, hlast, hup⟩ := hname
      split at hup
      · cases hup
      · next hne =>
        obtain rfl := Option.some.inj hup
        exact ⟨hpath last (List.mem_of_getLast? hlast), hne⟩
    have hjoin : canonical.join ⟨false, [name]⟩
        = ⟨canonical.absolute, canonical.components ++ [name]⟩ := rfl
    rw [hjoin]
    refine ⟨habsolute, fun other hother => ?_⟩
    rcases List.mem_append.mp hother with hother | hother
    · exact hnames other hother
    · obtain rfl := List.mem_singleton.mp hother
      exact hlast

/-- A path under a root has names if both have. -/
theorem FsPath.under_ok {root path : FsPath} (hroot : root.IsCanonical) (hpath : path.Ok) :
    (root.under path).Ok := by
  unfold under
  split
  · exact hpath
  · next hrelative =>
    intro name hname
    rw [join, if_neg hrelative] at hname
    rcases List.mem_append.mp hname with hname | hname
    · exact (hroot.names name hname).1
    · exact hpath name hname

/-! ## Spelling a location -/

/-- Names between slashes are read off one way. -/
theorem chars_injective {names names' : List String} (h : ∀ name ∈ names, IsName name)
    (h' : ∀ name ∈ names', IsName name)
    (heq : (names.flatMap fun name => '/' :: name.toList)
      = names'.flatMap fun name => '/' :: name.toList) : names = names' := by
  induction names generalizing names' with
  | nil =>
    cases names' with
    | nil => rfl
    | cons name names' => cases heq
  | cons name names ih =>
    cases names' with
    | nil => cases heq
    | cons name' names' =>
      obtain ⟨-, hslash, -⟩ := h name List.mem_cons_self
      obtain ⟨-, hslash', -⟩ := h' name' List.mem_cons_self
      rw [List.flatMap_cons, List.flatMap_cons, List.cons_append, List.cons_append,
        List.cons.injEq] at heq
      -- each name ends at the next slash
      have htake : ∀ (ns : List String) {n : String}, '/' ∉ n.toList →
          (n.toList ++ ns.flatMap fun name => '/' :: name.toList).takeWhile (· != '/')
            = n.toList := by
        intro ns n hn
        rw [List.takeWhile_append_of_pos fun c hc => by simpa using ne_of_mem_of_not_mem hc hn]
        cases ns with
        | nil => simp
        | cons m ns => simp
      have hfirst : name.toList = name'.toList := by
        rw [← htake names hslash, ← htake names' hslash', heq.2]
      obtain rfl := String.toList_injective hfirst
      rw [ih (fun n hn => h n (List.mem_cons_of_mem _ hn))
        (fun n hn => h' n (List.mem_cons_of_mem _ hn)) (List.append_cancel_left heq.2)]

/-- The text of names joined by slashes. -/
theorem toList_intercalate_cons (name : String) (names : List String) :
    ("/".intercalate (name :: names)).toList
      = name.toList ++ names.flatMap fun name => '/' :: name.toList := by
  induction names generalizing name with
  | nil => simp
  | cons next names ih =>
    rw [String.intercalate_cons_cons, String.toList_append, String.toList_append, ih next,
      List.flatMap_cons, List.append_assoc]
    rfl

/-- **An entry spells its location**: it names a canonical path inside the root if and only if it is
that path, spelled from the root. -/
theorem names_iff {root loc : FsPath} (hroot : root.IsCanonical) (hloc : loc.IsCanonical)
    {names : List String} (hinside : loc.components = root.components ++ names) (entry : String) :
    Names root entry loc ↔ entry = FsPath.portable ⟨false, names⟩ := by
  have hnames : ∀ name ∈ names, IsName name ∧ name ≠ ".." := fun name hname =>
    hloc.names name (by rw [hinside]; exact List.mem_append_right _ hname)
  -- a canonical path has no parent step, so the filter of the source keeps every name
  have hfilter : names.filter (fun name => name != "..") = names := by
    rw [List.filter_eq_self]
    intro name hname
    simpa using (hnames name hname).2
  have hroot_iff : loc = root ↔ names = [] := by
    constructor
    · rintro rfl
      simpa using hinside
    · rintro rfl
      obtain ⟨absolute, components⟩ := loc
      obtain ⟨absolute', components'⟩ := root
      have habsolute : absolute = true := hloc.absolute
      have habsolute' : absolute' = true := hroot.absolute
      rw [List.append_nil] at hinside
      obtain rfl : components = components' := hinside
      rw [habsolute, habsolute']
  have hchars : loc.chars = root.chars ++ names.flatMap fun name => '/' :: name.toList := by
    unfold FsPath.chars
    rw [hinside, List.flatMap_append]
  unfold Names FsPath.portable
  dsimp only
  rw [hfilter, hchars, hroot_iff, List.append_cancel_left_eq]
  cases names with
  | nil => simp
  | cons name names =>
    obtain ⟨hempty, -, hdot⟩ := (hnames name List.mem_cons_self).1
    -- no name is a dot, so the entry of a path below the root is none either
    have hne : "/".intercalate (name :: names) ≠ "." := by
      intro heq
      have hlist := congrArg String.toList heq
      rw [toList_intercalate_cons] at hlist
      cases hname : name.toList with
      | nil => exact hempty (String.toList_eq_nil_iff.mp hname)
      | cons c cs =>
        rw [hname, List.cons_append] at hlist
        obtain ⟨rfl, hrest⟩ := List.cons.inj hlist
        obtain ⟨rfl, -⟩ := List.append_eq_nil_iff.mp hrest
        exact hdot (String.toList_injective hname)
    rw [if_neg (show ¬ (name :: names).isEmpty = true by simp)]
    by_cases hentry : entry = "."
    · rw [if_pos hentry, hentry]
      exact ⟨fun h => (nomatch h), fun h => absurd h.symm hne⟩
    · rw [if_neg hentry, ← String.toList_inj, toList_intercalate_cons, List.flatMap_cons,
        List.cons_append, List.cons.injEq]
      exact ⟨fun h => h.2.symm, fun h => ⟨rfl, h.symm⟩⟩

/-- What lies inside a root has its names in front. -/
theorem startsWith_iff {root loc : FsPath} (hroot : root.IsCanonical) (hloc : loc.IsCanonical) :
    loc.startsWith root = true ↔ ∃ names, loc.components = root.components ++ names := by
  unfold FsPath.startsWith
  rw [hroot.absolute, hloc.absolute, Bool.and_eq_true, List.isPrefixOf_iff_prefix]
  constructor
  · rintro ⟨-, names, hnames⟩
    exact ⟨names, hnames.symm⟩
  · rintro ⟨names, hnames⟩
    exact ⟨rfl, names, hnames.symm⟩

/-! ## One path of an event -/

section Normalize

variable {env : Env σ} {host : σ} {root : FsPath} {target : Target}

/-- One path, from its location. -/
theorem normalizePath_def (path : FsPath) : normalizePath env host root target path =
    (safeAbsolute env host (root.under path)).bind fun safe =>
      if !safe.startsWith root then none
      else if target.exactLeaf && !target.isLeaf root (root.under path) safe then some none
      else (safe.relativeTo root).bind fun relative => some (some relative.portable) := rfl

/-- A path without a location inside the root. -/
theorem normalizePath_eq_none {path : FsPath} (h : ¬ ∃ loc,
    Location env host (root.under path) loc ∧ loc.startsWith root = true) :
    normalizePath env host root target path = none := by
  rw [normalizePath_def]
  cases hsafe : safeAbsolute env host (root.under path) with
  | none => rfl
  | some loc =>
    have hout : loc.startsWith root = false := by
      rw [Bool.eq_false_iff]
      exact fun hinside => h ⟨loc, location_iff.mpr hsafe, hinside⟩
    rw [Option.bind_some, hout]
    rfl

/-- The target is at a location where the event's leaf is compared with it. -/
theorem isLeaf_iff (hcandidate : ∀ c, target.canonicalAtBind = some c →
    c = target.canonicalCandidate) (path loc : FsPath) :
    target.isLeaf root path loc = true ↔ target.Is root path loc := by
  unfold Target.isLeaf Target.Is
  simp only [Bool.or_eq_true, beq_iff_eq, or_assoc]
  constructor
  · rintro (h | h | h | h)
    · exact Or.inl h
    · exact Or.inr (Or.inl h)
    · exact Or.inr (Or.inr h)
    · exact Or.inr (Or.inr (hcandidate loc h))
  · rintro (h | h | h)
    · exact Or.inl h
    · exact Or.inr (Or.inl h)
    · exact Or.inr (Or.inr (Or.inl h))

/-- A path with a location inside the root: its entry, unless it is beside an exact leaf. -/
theorem normalizePath_eq_some (henv : env.CanonicalPaths host) (hroot : root.IsCanonical)
    (hcandidate : ∀ c, target.canonicalAtBind = some c → c = target.canonicalCandidate)
    {path loc : FsPath} (hpath : path.Ok) (hloc : Location env host (root.under path) loc)
    (hinside : loc.startsWith root = true) :
    ∃ found, normalizePath env host root target path = some found ∧
      ∀ entry, found = some entry ↔ Names root entry loc ∧
        (target.exactLeaf = true → target.Is root (root.under path) loc) := by
  have hcanonical := hloc.isCanonical henv (FsPath.under_ok hroot hpath)
  obtain ⟨names, hnames⟩ := (startsWith_iff hroot hcanonical).mp hinside
  have hrelative : loc.relativeTo root = some ⟨false, names⟩ := by
    unfold FsPath.relativeTo
    rw [if_pos hinside, hnames, List.drop_left]
  have hsafe := location_iff.mp hloc
  have hleaf := @isLeaf_iff root target hcandidate (root.under path) loc
  have hentry := names_iff hroot hcanonical hnames
  rw [normalizePath_def, hsafe, Option.bind_some, hinside, hrelative, if_neg (by decide)]
  split
  · next hbeside =>
    refine ⟨none, rfl, fun entry => ⟨fun h => (nomatch h), ?_⟩⟩
    rintro ⟨-, his⟩
    rw [Bool.and_eq_true, Bool.not_eq_true'] at hbeside
    have htrue := hleaf.mpr (his hbeside.1)
    rw [hbeside.2] at htrue
    cases htrue
  · next hkept =>
    refine ⟨_, rfl, fun entry => ?_⟩
    rw [Option.some.injEq, hentry]
    constructor
    · rintro rfl
      refine ⟨rfl, fun hexact => hleaf.mp ?_⟩
      simpa [hexact] using hkept
    · rintro ⟨rfl, -⟩
      rfl

/-! ## All paths of an event -/

/-- A traversal that meets a refusal. -/
theorem mapM_eq_none {α β : Type} {f : α → Option β} {l : List α} (h : ∃ a ∈ l, f a = none) :
    l.mapM f = none := by
  induction l with
  | nil => simp at h
  | cons a l ih =>
    rw [List.mapM_cons]
    cases ha : f a with
    | none => rfl
    | some b =>
      obtain ⟨c, hc, hnone⟩ := h
      rcases List.mem_cons.mp hc with rfl | hc
      · rw [ha] at hnone
        cases hnone
      · rw [ih ⟨c, hc, hnone⟩]
        rfl

/-- A traversal without one. -/
theorem mapM_eq_some {α β : Type} {f : α → Option β} {l : List α} (h : ∀ a ∈ l, ∃ b, f a = some b) :
    ∃ bs, l.mapM f = some bs ∧ ∀ b, b ∈ bs ↔ ∃ a ∈ l, f a = some b := by
  induction l with
  | nil => exact ⟨[], rfl, by simp⟩
  | cons a l ih =>
    obtain ⟨b, hb⟩ := h a List.mem_cons_self
    obtain ⟨bs, hbs, hmem⟩ := ih fun a ha => h a (List.mem_cons_of_mem _ ha)
    refine ⟨b :: bs, by rw [List.mapM_cons, hb, hbs]; rfl, fun c => ?_⟩
    rw [List.mem_cons, hmem]
    constructor
    · rintro (rfl | ⟨a', ha', heq⟩)
      · exact ⟨a, List.mem_cons_self, hb⟩
      · exact ⟨a', List.mem_cons_of_mem _ ha', heq⟩
    · rintro ⟨a', ha', heq⟩
      rcases List.mem_cons.mp ha' with rfl | ha'
      · exact Or.inl (Option.some.inj (heq.symm.trans hb))
      · exact Or.inr ⟨a', ha', heq⟩

/-- Entries in order without repetitions: the same ones, strictly increasing. -/
theorem sorted_entries (entries : List String) :
    ((entries.insertionSort (· ≤ ·)).destutter (· ≠ ·)).Pairwise (· < ·) ∧
      ∀ entry, entry ∈ (entries.insertionSort (· ≤ ·)).destutter (· ≠ ·) ↔ entry ∈ entries := by
  have hsorted : (entries.insertionSort (· ≤ ·)).Pairwise (· ≤ ·) :=
    List.pairwise_insertionSort _ entries
  have hmem : ∀ (l : List String) (a : String), (a :: l).Pairwise (· ≤ ·) →
      (l.destutter' (· ≠ ·) a).Pairwise (· < ·) ∧
        ∀ b, b ∈ l.destutter' (· ≠ ·) a ↔ b ∈ a :: l := by
    intro l
    induction l with
    | nil => intro a _; simp
    | cons b l ih =>
      intro a hle
      rw [List.pairwise_cons] at hle
      by_cases hab : a = b
      · -- a repetition is dropped
        subst hab
        obtain ⟨hlt, hiff⟩ := ih a hle.2
        rw [List.destutter'_cons_neg _ (by simp)]
        exact ⟨hlt, fun c => by rw [hiff]; simp⟩
      · obtain ⟨hlt, hiff⟩ := ih b hle.2
        rw [List.destutter'_cons_pos _ hab]
        refine ⟨List.pairwise_cons.mpr ⟨fun c hc => ?_, hlt⟩, fun c => ?_⟩
        · have hfirst : a < b := lt_of_le_of_ne (hle.1 b List.mem_cons_self) hab
          rcases List.mem_cons.mp ((hiff c).mp hc) with rfl | hc
          · exact hfirst
          · exact hfirst.trans_le ((List.pairwise_cons.mp hle.2).1 c hc)
        · rw [List.mem_cons, hiff, List.mem_cons (a := c) (b := a)]
  have hperm : ∀ entry, entry ∈ entries.insertionSort (· ≤ ·) ↔ entry ∈ entries := fun entry =>
    (List.perm_insertionSort _ entries).mem_iff
  cases hl : entries.insertionSort (· ≤ ·) with
  | nil =>
    rw [hl] at hperm
    simpa using hperm
  | cons a l =>
    rw [hl] at hsorted hperm
    obtain ⟨hlt, hiff⟩ := hmem l a hsorted
    rw [List.destutter_cons']
    exact ⟨hlt, fun entry => (hiff entry).trans (hperm entry)⟩

/-- An event with a path that has no location inside the root is refused. -/
theorem normalizePaths_eq_none {paths : List FsPath} (h : ∃ path ∈ paths, ¬ ∃ loc,
    Location env host (root.under path) loc ∧ loc.startsWith root = true) :
    normalizePaths env host root target paths = none := by
  obtain ⟨path, hpath, hout⟩ := h
  unfold normalizePaths
  rw [mapM_eq_none ⟨path, hpath, normalizePath_eq_none hout⟩]
  rfl

/-- Any other event has the entries of its locations. -/
theorem normalizePaths_eq_some (henv : env.CanonicalPaths host) (hroot : root.IsCanonical)
    (hcandidate : ∀ c, target.canonicalAtBind = some c → c = target.canonicalCandidate)
    {paths : List FsPath} (hpaths : ∀ path ∈ paths, path.Ok)
    (h : ∀ path ∈ paths, ∃ loc, Location env host (root.under path) loc ∧
      loc.startsWith root = true) :
    ∃ entries, normalizePaths env host root target paths = some entries ∧
      entries.Pairwise (· < ·) ∧ ∀ entry, entry ∈ entries ↔ ∃ path ∈ paths, ∃ loc,
        Location env host (root.under path) loc ∧ Names root entry loc ∧
          (target.exactLeaf = true → target.Is root (root.under path) loc) := by
  have hstep : ∀ path ∈ paths, ∃ loc found, Location env host (root.under path) loc ∧
      normalizePath env host root target path = some found ∧
      ∀ entry, found = some entry ↔ Names root entry loc ∧
        (target.exactLeaf = true → target.Is root (root.under path) loc) := by
    intro path hpath
    obtain ⟨loc, hloc, hinside⟩ := h path hpath
    obtain ⟨found, heq, hiff⟩ :=
      normalizePath_eq_some henv hroot hcandidate (hpaths path hpath) hloc hinside
    exact ⟨loc, found, hloc, heq, hiff⟩
  obtain ⟨normalized, hnormalized, hmem⟩ :=
    mapM_eq_some (f := normalizePath env host root target) fun path hpath => by
      obtain ⟨_, found, _, heq, _⟩ := hstep path hpath
      exact ⟨found, heq⟩
  obtain ⟨hlt, hiff⟩ := sorted_entries (normalized.filterMap id)
  refine ⟨_, by unfold normalizePaths; rw [hnormalized]; rfl, hlt, fun entry => ?_⟩
  rw [hiff, List.mem_filterMap]
  constructor
  · rintro ⟨found, hentry, hsome⟩
    obtain ⟨path, hpath, heq⟩ := (hmem found).mp hentry
    obtain ⟨loc, found', hloc, heq', hentries⟩ := hstep path hpath
    obtain rfl := Option.some.inj (heq.symm.trans heq')
    exact ⟨path, hpath, loc, hloc, (hentries entry).mp hsome⟩
  · rintro ⟨path, hpath, loc, hloc, hnames⟩
    obtain ⟨loc', found, hloc', heq, hentries⟩ := hstep path hpath
    -- a path has one location
    obtain rfl : loc' = loc := by
      rw [location_iff] at hloc hloc'
      exact Option.some.inj (hloc'.symm.trans hloc)
    exact ⟨found, (hmem found).mpr ⟨path, hpath, heq⟩, (hentries entry).mpr hnames⟩

/-- What a bind resolves to has one location: where it was at bind, if it was anywhere. -/
theorem candidate_of_resolve {host₀ : σ} {subject : String}
    (h : Target.resolve env host₀ root subject = some target) :
    ∀ c, target.canonicalAtBind = some c → c = target.canonicalCandidate := by
  have hlast : ∀ resolved : Target, (if (!resolved.containerCanonical.startsWith root) = true
      then none else some resolved) = some target → resolved = target := by
    intro resolved h
    split at h
    · cases h
    · exact Option.some.inj h
  unfold Target.resolve at h
  simp only [Option.bind_eq_bind, Option.bind_eq_some_iff] at h
  obtain ⟨relative, -, h⟩ := h
  split at h
  · split at h
    · cases h
    split at h
    · obtain ⟨_, -, h⟩ := Option.bind_eq_some_iff.mp h
      rw [← hlast _ h]
      exact fun c hc => (Option.some.inj hc).symm
    · obtain ⟨_, -, h⟩ := Option.bind_eq_some_iff.mp h
      obtain ⟨_, -, h⟩ := Option.bind_eq_some_iff.mp h
      rw [← hlast _ h]
      exact fun c hc => (Option.some.inj hc).symm
  · obtain ⟨_, -, h⟩ := Option.bind_eq_some_iff.mp h
    obtain ⟨_, -, h⟩ := Option.bind_eq_some_iff.mp h
    split at h
    · cases h
    obtain ⟨_, -, h⟩ := Option.bind_eq_some_iff.mp h
    rw [← hlast _ h]
    exact fun c hc => (nomatch hc)

/-- **The paths of an event** are the locations of the reported paths inside the root, for every
filesystem, canonical root, resolved target and list of paths. -/
theorem normalizePaths_spec (henv : env.CanonicalPaths host) (hroot : root.IsCanonical)
    (htarget : target = Target.inert ∨
      ∃ host₀ subject, Target.resolve env host₀ root subject = some target) :
    (∀ paths : List FsPath, (∀ path ∈ paths, path.Ok) →
      ((∃ path ∈ paths, ¬ ∃ loc, Location env host (root.under path) loc ∧
          loc.startsWith root = true) → normalizePaths env host root target paths = none) ∧
      ((∀ path ∈ paths, ∃ loc, Location env host (root.under path) loc ∧
          loc.startsWith root = true) →
        ∃ entries, normalizePaths env host root target paths = some entries ∧
          entries.Pairwise (· < ·) ∧ ∀ entry, entry ∈ entries ↔ ∃ path ∈ paths, ∃ loc,
            Location env host (root.under path) loc ∧ Names root entry loc ∧
              (target.exactLeaf = true → target.Is root (root.under path) loc)) ∧
      ∀ paths' : List FsPath, (∀ path, path ∈ paths' ↔ path ∈ paths) →
        normalizePaths env host root target paths' = normalizePaths env host root target paths) ∧
    ∀ (path path' loc loc' : FsPath) (entry : String), path.Ok → path'.Ok →
      Location env host (root.under path) loc → Location env host (root.under path') loc' →
      Names root entry loc → Names root entry loc' → loc = loc' := by
  have hcandidate : ∀ c, target.canonicalAtBind = some c → c = target.canonicalCandidate := by
    rcases htarget with rfl | ⟨host₀, subject, hresolve⟩
    · exact fun c hc => nomatch hc
    · exact candidate_of_resolve hresolve
  constructor
  · intro paths hpaths
    refine ⟨normalizePaths_eq_none, normalizePaths_eq_some henv hroot hcandidate hpaths, ?_⟩
    intro paths' hsame
    by_cases hout : ∃ path ∈ paths, ¬ ∃ loc, Location env host (root.under path) loc ∧
        loc.startsWith root = true
    · obtain ⟨path, hpath, hno⟩ := hout
      rw [normalizePaths_eq_none ⟨path, hpath, hno⟩,
        normalizePaths_eq_none ⟨path, (hsame path).mpr hpath, hno⟩]
    · have hall : ∀ path ∈ paths, ∃ loc, Location env host (root.under path) loc ∧
          loc.startsWith root = true := by
        intro path hpath
        by_contra hno
        exact hout ⟨path, hpath, hno⟩
      obtain ⟨entries, heq, hlt, hiff⟩ :=
        normalizePaths_eq_some henv hroot hcandidate hpaths hall
      obtain ⟨entries', heq', hlt', hiff'⟩ := normalizePaths_eq_some henv hroot hcandidate
        (fun path hpath => hpaths path ((hsame path).mp hpath))
        (fun path hpath => hall path ((hsame path).mp hpath))
      -- two increasing lists of the same entries are one
      have hperm : entries'.Perm entries := by
        rw [List.perm_ext_iff_of_nodup (hlt'.imp fun h => h.ne) (hlt.imp fun h => h.ne)]
        intro entry
        rw [hiff, hiff']
        simp only [hsame]
      rw [heq, heq', hperm.eq_of_pairwise (fun a b _ _ hab hba => absurd (hab.trans hba)
        (lt_irrefl _)) hlt' hlt]
  · intro path path' loc loc' entry hpath hpath' hloc hloc' hentry hentry'
    have hcanonical := hloc.isCanonical henv (FsPath.under_ok hroot hpath)
    have hcanonical' := hloc'.isCanonical henv (FsPath.under_ok hroot hpath')
    have hchars : loc.chars = loc'.chars := by
      unfold Names at hentry hentry'
      split at hentry
      · next hdot =>
        rw [if_pos hdot] at hentry'
        rw [hentry, hentry']
      · next hdot =>
        rw [if_neg hdot] at hentry'
        rw [hentry, hentry']
    have hcomponents := chars_injective (fun name hname => (hcanonical.names name hname).1)
      (fun name hname => (hcanonical'.names name hname).1) hchars
    obtain ⟨absolute, components⟩ := loc
    obtain ⟨absolute', components'⟩ := loc'
    obtain rfl : components = components' := hcomponents
    have habsolute : absolute = true := hcanonical.absolute
    have habsolute' : absolute' = true := hcanonical'.absolute
    rw [habsolute, habsolute']

end Normalize

/-- A directory with a file and a link to it. -/
def linkEnv : Env Unit where
  canonicalize _ path :=
    if path = ⟨true, ["srv"]⟩ then some ⟨true, ["srv"]⟩
    else if path = ⟨true, ["srv", "a"]⟩ ∨ path = ⟨true, ["srv", "link"]⟩ then
      some ⟨true, ["srv", "a"]⟩
    else none
  pathExists _ path := path ∈ [⟨true, ["srv"]⟩, ⟨true, ["srv", "a"]⟩, ⟨true, ["srv", "link"]⟩]
  isDir _ path := path = ⟨true, ["srv"]⟩
  start _ host := (true, host)
  materialize _ host := (.error (validationError "/paths" "no_sink"), host)
  now host := (⟨"2026-08-31T20:00:00Z", 1788206400000000000⟩, host)
  hexSha256 _ := "digest"

/-- The link, the file and a name that is gone have entries in order. -/
theorem normalizePaths_spec_link :
    ∃ entries, normalizePaths linkEnv () ⟨true, ["srv"]⟩ Target.inert
        [⟨true, ["srv", "link"]⟩, ⟨false, ["gone"]⟩, ⟨true, ["srv", "a"]⟩] = some entries ∧
      entries.Pairwise (· < ·) := by
  have hcanonical : linkEnv.CanonicalPaths () := by
    have hcases : ∀ path c, linkEnv.canonicalize () path = some c →
        c = ⟨true, ["srv"]⟩ ∨ c = ⟨true, ["srv", "a"]⟩ := by
      intro path c h
      unfold linkEnv at h
      dsimp only at h
      split at h
      · exact Or.inl (Option.some.inj h).symm
      · split at h
        · exact Or.inr (Option.some.inj h).symm
        · cases h
    constructor
    · intro path c h
      rcases hcases path c h with rfl | rfl
      all_goals exact ⟨rfl, by decide⟩
    · intro path c h
      rcases hcases path c h with rfl | rfl
      all_goals rfl
  have hlocation : ∀ path ∈ [⟨true, ["srv", "link"]⟩, ⟨false, ["gone"]⟩, ⟨true, ["srv", "a"]⟩],
      ∃ loc, Location linkEnv () (FsPath.under ⟨true, ["srv"]⟩ path) loc ∧
        loc.startsWith ⟨true, ["srv"]⟩ = true := by
    intro path hpath
    simp only [List.mem_cons, List.not_mem_nil, or_false] at hpath
    rcases hpath with rfl | rfl | rfl
    · exact ⟨⟨true, ["srv", "a"]⟩, location_iff.mpr rfl, rfl⟩
    · exact ⟨⟨true, ["srv", "gone"]⟩, location_iff.mpr rfl, rfl⟩
    · exact ⟨⟨true, ["srv", "a"]⟩, location_iff.mpr rfl, rfl⟩
  have hroot : FsPath.IsCanonical ⟨true, ["srv"]⟩ := ⟨rfl, by decide⟩
  have hspec := (normalizePaths_spec hcanonical hroot (Or.inl rfl)).1
    [⟨true, ["srv", "link"]⟩, ⟨false, ["gone"]⟩, ⟨true, ["srv", "a"]⟩] (by unfold FsPath.Ok; decide)
  obtain ⟨entries, heq, hlt, -⟩ := hspec.2.1 hlocation
  exact ⟨entries, heq, hlt⟩

end Fs

end Waitprims
