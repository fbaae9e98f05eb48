import LineShell.Proofs.Host.Resolution
import LineShell.Proofs.Lookup

/-!
# Laws of the search path

A name is looked for under the entries of the search path, which stand between its colons.  The
first entry that offers a program decides, so to look along two search paths in one is to look along
the first and then along the second.  Empty entries offer nothing, wherever they stand.
-/

namespace LineShell

theorem Text.fields_eq_splitOn (mark : Char) (t : Text) : fields mark t = t.splitOn mark := by
  induction t with
  | nil => rfl
  | cons c rest ih =>
      rw [fields, List.splitOn_cons_eq_if_modifyHead, ← ih]
      simp only [beq_iff_eq]
      split
      · rfl
      · cases hfields : fields mark rest with
        | nil => exact absurd hfields (fields_ne_nil mark rest)
        | cons field later => rfl

def FileTree.HasProgram (t : FileTree) (path : Text) : Prop :=
  ∃ p mode content, t.Leads path (.ok (p, .file mode content)) ∧ mode.executable = true

theorem Host.isExecutable_iff_hasProgram {h : Host} {path : Text}
    (habs : Path.isAbsolute path = true) :
    h.isExecutable path = true ↔ h.tree.HasProgram path := by
  simp only [isExecutable_iff, FileTree.HasProgram, FileTree.leads_iff habs h.workDir, Host.find]

namespace Lookup

/-- An entry of a search path offers a program of a name.  The empty entry offers none. -/
structure Offers (t : FileTree) (cwd name entry : Text) : Prop where
  nonempty : entry ≠ []
  program : t.HasProgram (Path.join (Path.join cwd entry) name)

def FirstOffer (t : FileTree) (cwd name : Text) (entries : List Text) (path : Text) : Prop :=
  ∃ before entry after, entries = before ++ entry :: after ∧
    (∀ earlier ∈ before, ¬ Offers t cwd name earlier) ∧ Offers t cwd name entry ∧
    path = Path.join (Path.join cwd entry) name

def nonemptyEntries (searchPath : Text) : List Text :=
  (searchPath.splitOn ':').filter fun entry => !entry.isEmpty

def offers (h : Host) (cwd name entry : Text) : Bool :=
  !entry.isEmpty && h.isExecutable (Path.join (Path.join cwd entry) name)

variable {h : Host} {searchPath : Option Text} {cwd name path p q : Text}

theorem offers_iff (hcwd : Path.isAbsolute cwd = true) {entry : Text} :
    offers h cwd name entry = true ↔ Offers h.tree cwd name entry := by
  have habs := Path.isAbsolute_join (Path.isAbsolute_join hcwd entry) name
  rw [offers, Bool.and_eq_true, Host.isExecutable_iff_hasProgram habs]
  constructor
  · rintro ⟨hne, hprogram⟩
    exact ⟨by simpa using hne, hprogram⟩
  · rintro ⟨hne, hprogram⟩
    exact ⟨by simpa using hne, hprogram⟩

theorem directories_eq (p : Text) : directories p = nonemptyEntries p := by
  rw [directories, Text.fields_eq_splitOn, nonemptyEntries]

theorem directories_append (p q : Text) :
    directories (p ++ ':' :: q) = directories p ++ directories q := by
  rw [directories, Text.fields_append_mark, List.filter_append]
  rfl

/-! ## Names with a slash -/

theorem resolve_slash_iff (hcwd : Path.isAbsolute cwd = true) (hname : '/' ∈ name) :
    resolve h searchPath cwd name = some path ↔
      path = name ∧ h.tree.HasProgram (Path.join cwd name) := by
  unfold resolve
  rw [if_pos (List.contains_iff_mem.mpr hname),
    ← Host.isExecutable_iff_hasProgram (Path.isAbsolute_join hcwd name)]
  split
  · next hexec => simp [hexec, eq_comm]
  · next hexec => simp [hexec]

/-! ## Names without a slash -/

theorem resolve_plain (hname : '/' ∉ name) :
    resolve h searchPath cwd name =
      searchPath.bind fun p => (candidates p cwd name).find? h.isExecutable := by
  unfold resolve
  rw [if_neg (mt List.contains_iff_mem.mp hname)]
  cases searchPath <;> rfl

theorem resolve_plain_eq (hname : '/' ∉ name) (p : Text) :
    resolve h (some p) cwd name =
      ((p.splitOn ':').find? (offers h cwd name)).map fun entry =>
        Path.join (Path.join cwd entry) name := by
  rw [resolve_plain hname, Option.bind_some, candidates, directories_eq, nonemptyEntries,
    List.find?_map, List.find?_filter]
  simp only [Function.comp_def, Bool.decide_and, Bool.decide_eq_true]
  rfl

theorem resolve_eq_some_iff (hcwd : Path.isAbsolute cwd = true) (hname : '/' ∉ name) :
    resolve h (some p) cwd name = some path ↔
      FirstOffer h.tree cwd name (p.splitOn ':') path := by
  rw [resolve_plain_eq hname, Option.map_eq_some_iff]
  constructor
  · rintro ⟨entry, hfind, rfl⟩
    obtain ⟨hentry, before, after, hentries, hbefore⟩ := List.find?_eq_some_iff_append.mp hfind
    refine ⟨before, entry, after, hentries, fun earlier hearlier hoffers => ?_,
      (offers_iff hcwd).mp hentry, rfl⟩
    have hnot := hbefore earlier hearlier
    rw [(offers_iff hcwd).mpr hoffers] at hnot
    cases hnot
  · rintro ⟨before, entry, after, hentries, hbefore, hentry, rfl⟩
    refine ⟨entry, List.find?_eq_some_iff_append.mpr ⟨(offers_iff hcwd).mpr hentry, before, after,
      hentries, fun earlier hearlier => ?_⟩, rfl⟩
    have hnot := mt (offers_iff hcwd).mp (hbefore earlier hearlier)
    simpa using hnot

theorem resolve_eq_none_iff (hcwd : Path.isAbsolute cwd = true) (hname : '/' ∉ name) :
    resolve h searchPath cwd name = none ↔
      ∀ p ∈ searchPath, ∀ entry ∈ p.splitOn ':', ¬ Offers h.tree cwd name entry := by
  cases searchPath with
  | none => simp [resolve_plain hname]
  | some p =>
      simp only [resolve_plain_eq hname, Option.map_eq_none_iff, List.find?_eq_none,
        offers_iff hcwd, Option.mem_some_iff, forall_eq']

theorem resolve_append (hname : '/' ∉ name) (p q : Text) :
    resolve h (some (p ++ ':' :: q)) cwd name =
      (resolve h (some p) cwd name).or (resolve h (some q) cwd name) := by
  simp only [resolve_plain hname, Option.bind_some, candidates, directories_append, List.map_append,
    List.find?_append]

theorem resolve_congr_entries (hname : '/' ∉ name) (hsame : nonemptyEntries p = nonemptyEntries q) :
    resolve h (some p) cwd name = resolve h (some q) cwd name := by
  simp only [resolve_plain hname, Option.bind_some, candidates, directories_eq, hsame]

theorem resolve_congr_cwd (hname : '/' ∉ name)
    (habs : ∀ entry ∈ nonemptyEntries p, Path.isAbsolute entry = true) (cwd cwd' : Text) :
    resolve h (some p) cwd name = resolve h (some p) cwd' name := by
  have hcandidates : candidates p cwd name = candidates p cwd' name := by
    unfold candidates
    rw [directories_eq]
    refine List.map_congr_left fun entry hentry => ?_
    rw [Path.join_of_isAbsolute cwd (habs entry hentry),
      Path.join_of_isAbsolute cwd' (habs entry hentry)]
  simp only [resolve_plain hname, Option.bind_some, hcandidates]

/-! ## The laws -/

/-- What a name is found as.  A name with a slash is found as itself, where it leads to a program.
Any other name is found under the first entry of the search path that offers a program; it is found
along two search paths in one as along the first, or else the second, as if there were no empty
entries, and, if the entries are absolute, from everywhere alike. -/
theorem resolve_laws (h : Host) {cwd : Text} (hcwd : Path.isAbsolute cwd = true) (name : Text) :
    ('/' ∈ name → ∀ searchPath path, resolve h searchPath cwd name = some path ↔
      path = name ∧ h.tree.HasProgram (Path.join cwd name)) ∧
    ('/' ∉ name →
      (∀ p path, resolve h (some p) cwd name = some path ↔
        FirstOffer h.tree cwd name (p.splitOn ':') path) ∧
      (∀ searchPath, resolve h searchPath cwd name = none ↔
        ∀ p ∈ searchPath, ∀ entry ∈ p.splitOn ':', ¬ Offers h.tree cwd name entry) ∧
      (∀ p q, resolve h (some (p ++ ':' :: q)) cwd name =
        (resolve h (some p) cwd name).or (resolve h (some q) cwd name)) ∧
      (∀ p q, nonemptyEntries p = nonemptyEntries q →
        resolve h (some p) cwd name = resolve h (some q) cwd name) ∧
      (∀ p, (∀ entry ∈ nonemptyEntries p, Path.isAbsolute entry = true) →
        ∀ cwd', resolve h (some p) cwd' name = resolve h (some p) cwd name)) := by
  refine ⟨fun hname searchPath path => resolve_slash_iff hcwd hname, fun hname =>
    ⟨fun p path => ?_, fun searchPath => ?_, ?_, fun p q hsame => ?_, fun p habs cwd' => ?_⟩⟩
  · exact resolve_eq_some_iff hcwd hname
  · exact resolve_eq_none_iff hcwd hname
  · exact resolve_append hname
  · exact resolve_congr_entries hname hsame
  · exact resolve_congr_cwd hname habs cwd' cwd

theorem resolve_laws_link :
    let tree := ((FileTree.bare.make ["r".toList, "bin".toList] (.file 0o755 Reporter.image)).make
      ["r".toList, "d".toList] (.file 0o644 [])).make ["l".toList] (.link "bin".toList)
    let h := Host.start tree Place.root
    let entries := ["".toList, ".".toList, "../l".toList, "/bin".toList]
    (Path.isAbsolute "/d".toList = true ∧ '/' ∉ "r".toList ∧
      ":.:../l:/bin".toList.splitOn ':' = entries) ∧
      resolve h (some ":.:../l:/bin".toList) "/d".toList "r".toList = some "/d/../l/r".toList ∧
      FirstOffer tree "/d".toList "r".toList entries "/d/../l/r".toList := by
  intro tree h entries
  have hname : '/' ∉ "r".toList := by decide +kernel
  have hentries : ":.:../l:/bin".toList.splitOn ':' = entries := by decide +kernel
  have hfound : resolve h (some ":.:../l:/bin".toList) "/d".toList "r".toList =
      some "/d/../l/r".toList := by decide +kernel
  have hcwd : Path.isAbsolute "/d".toList = true := rfl
  obtain ⟨-, hplain⟩ := resolve_laws h hcwd "r".toList
  have hfirst := ((hplain hname).1 _ _).mp hfound
  rw [hentries] at hfirst
  exact ⟨⟨hcwd, hname, hentries⟩, hfound, hfirst⟩

end Lookup

end LineShell
