import Uncomment.Proofs.ResolvedPaths

/-!
# Spellings of a path

A manifest can write the same path in many ways (`SpelledAlike`): with slashes or backslashes, with detours into
a directory and back, with stays in the directory where it is, and with white space around it. All of them
resolve to the same (`resolveManifestPath_of_spelledAlike`), since resolving takes detours back and leaves out
stays.

A path of plain names resolves to these names below the directory of the manifest, as a search of that
directory finds them (`resolveManifestPath_join`).
-/

namespace Uncomment

namespace Path

/-! ## Resolving -/

theorem normalize_append_current (path more : Path) :
    normalize (path ++ .current :: more) = normalize (path ++ more) := by
  rw [normalize, normalize, List.foldl_append, List.foldl_append]
  rfl

/-- **A detour leads nowhere.** -/
theorem normalize_append_detour (path more : Path) (name : Text) :
    normalize (path ++ .name name :: .parent :: more) = normalize (path ++ more) := by
  rw [normalize, normalize, List.foldl_append, List.foldl_append]
  rfl

/-- A part at the end is one step more. -/
theorem normalize_concat (path : Path) (part : PathPart) :
    normalize (path ++ [part]) = (resolveStep path.normalize.reverse part).reverse := by
  rw [normalize, normalize, List.foldl_append, List.reverse_reverse]
  rfl

theorem normalize_concat_name (path : Path) (name : Text) :
    normalize (path ++ [.name name]) = normalize path ++ [.name name] := by
  rw [normalize_concat]
  show (PathPart.name name :: path.normalize.reverse).reverse = _
  rw [List.reverse_cons, List.reverse_reverse]

/-- The parts of a text that lead somewhere. -/
def steps (t : Text) : Path :=
  (Text.splitAt '/' t).filterMap partOf?

theorem steps_append_slash (a b : Text) : steps (a ++ '/' :: b) = steps a ++ steps b := by
  rw [steps, Text.splitAt_append_cons, List.filterMap_append]
  rfl

theorem steps_of_notMem {t : Text} (h : '/' ∉ t) : steps t = (partOf? t).toList := by
  rw [steps, Text.splitAt_of_notMem h]
  cases hpart : partOf? t <;> simp [hpart]

theorem partOf?_name {name : Text} (h : IsName name) : partOf? name = some (.name name) := by
  have hstep : (PathPart.name name).IsStep := h
  exact partOf?_text hstep

theorem steps_name {name : Text} (h : IsName name) : steps name = [.name name] := by
  rw [steps_of_notMem h.2.2.2, partOf?_name h]
  rfl

theorem root_notMem_steps (t : Text) : PathPart.root ∉ steps t := by
  intro hmem
  obtain ⟨piece, hpiece, hpart⟩ := List.mem_filterMap.mp hmem
  exact isStep_partOf? (Text.notMem_of_mem_splitAt hpiece) hpart

/-- The start of a written path is the root if a slash begins it. -/
theorem exists_start (t : Text) : ∃ start, ofText t = start ++ steps t ∧
    if t.head? = some '/' then start = [.root] else start = [] ∨ start = [.current] := by
  refine ⟨_, rfl, ?_⟩
  cases t with
  | nil => simp [Text.splitAt]
  | cons c rest =>
    have hne := Text.splitAt_ne_nil '/' rest
    simp only [List.head?_cons, Option.some.injEq, Text.splitAt]
    cases hpieces : Text.splitAt '/' rest with
    | nil => exact absurd hpieces hne
    | cons piece pieces =>
      simp only
      split
      · rfl
      · split
        · next heq => cases heq
        · exact Or.inr rfl
        · exact Or.inl rfl

/-- Where a written path leads from a directory. -/
theorem normalize_followedBy_ofText (base : Path) (t : Text) :
    (base.followedBy (ofText t)).normalize =
      normalize ((if t.head? = some '/' then [.root] else base) ++ steps t) := by
  obtain ⟨start, hstart, hroot⟩ := exists_start t
  rw [hstart]
  split at hroot
  · next hslash => rw [hroot, if_pos hslash]; rfl
  · next hslash =>
    rw [if_neg hslash]
    have hfollowed : base.followedBy (start ++ steps t) = base ++ (start ++ steps t) := by
      unfold followedBy
      split
      · next rest heq =>
        have hmem : PathPart.root ∈ start ++ steps t := heq ▸ List.mem_cons_self
        rcases List.mem_append.mp hmem with hmem | hmem
        · rcases hroot with rfl | rfl <;> simp at hmem
        · exact absurd hmem (root_notMem_steps t)
      · rfl
    rw [hfollowed]
    rcases hroot with rfl | rfl
    · rfl
    · exact normalize_append_current base _

end Path

/-! ## Spellings -/

/-- A character between the parts of a path written in a manifest. -/
def isSeparator (c : Char) : Bool :=
  c == '/' || c == '\\'

/-- A text with slashes for backslashes. -/
def slashed (t : Text) : Text :=
  t.map fun c => if c = '\\' then '/' else c

/-- Between these texts a part of a path ends and another one begins. -/
def IsSeam (before after : Text) : Prop :=
  (∃ path c, isSeparator c = true ∧ before = path ++ [c]) ∨
    before = [] ∧ ∀ c ∈ after.head?, isSeparator c = false ∧ isBlank c = false

/-- The name of a directory as it can be written anywhere. -/
structure IsPlainName (name : Text) : Prop where
  isName : IsName name
  noBackslash : '\\' ∉ name
  notBlank : ∀ c ∈ name.head?, isBlank c = false

/-- Two ways to write the same path. They differ in any number of the ways that are given last. -/
inductive SpelledAlike : Text → Text → Prop
  | refl (t : Text) : SpelledAlike t t
  | symm {a b : Text} : SpelledAlike a b → SpelledAlike b a
  | trans {a b c : Text} : SpelledAlike a b → SpelledAlike b c → SpelledAlike a c
  | trimmed (t : Text) : SpelledAlike t (Text.trim t)
  | slash (before after : Text) : SpelledAlike (before ++ '/' :: after) (before ++ '\\' :: after)
  | stay {before after : Text} : IsSeam before after →
      SpelledAlike (before ++ after) (before ++ ("./".toList ++ after))
  | detour {before after name : Text} : IsSeam before after → IsPlainName name →
      SpelledAlike (before ++ after) (before ++ (name ++ ("/../".toList ++ after)))

section Slashed

variable {a b t : Text}

theorem slashed_append (a b : Text) : slashed (a ++ b) = slashed a ++ slashed b :=
  List.map_append

theorem slashed_of_notMem (h : '\\' ∉ t) : slashed t = t := by
  unfold slashed
  refine (List.map_congr_left fun c hc => ?_).trans (List.map_id t)
  rw [if_neg (by rintro rfl; exact h hc)]
  rfl

theorem slashed_separator {c : Char} (h : isSeparator c = true) : slashed [c] = ['/'] := by
  rcases Bool.or_eq_true_iff.mp h with h | h <;> rw [beq_iff_eq.mp h] <;> rfl

theorem isBlank_slash (c : Char) : isBlank (if c = '\\' then '/' else c) = isBlank c := by
  split
  · next h => rw [h]; decide
  · rfl

theorem trim_slashed (t : Text) : Text.trim (slashed t) = slashed (Text.trim t) :=
  Text.trim_map isBlank_slash t

theorem isBlank_head_slashed (h : ∀ c ∈ t.head?, isBlank c = false) :
    ∀ c ∈ (slashed t).head?, isBlank c = false := by
  intro c hc
  rw [slashed, List.head?_map] at hc
  obtain ⟨d, hd, rfl⟩ := Option.map_eq_some_iff.mp hc
  rw [isBlank_slash]
  exact h d hd

theorem slash_head_slashed (h : ∀ c ∈ t.head?, isSeparator c = false) : (slashed t).head? ≠ some '/' := by
  intro hc
  rw [slashed, List.head?_map] at hc
  obtain ⟨d, hd, hslash⟩ := Option.map_eq_some_iff.mp hc
  have hseparator := h d hd
  split at hslash
  · next hback => rw [hback] at hseparator; cases hseparator
  · rw [hslash] at hseparator; cases hseparator

end Slashed

theorem resolveManifestPath_eq (base : Path) (written : Text) :
    resolveManifestPath base written =
      Path.normalize ((if (Text.trim (slashed written)).head? = some '/' then [.root] else base) ++
        Path.steps (Text.trim (slashed written))) := by
  rw [← Path.normalize_followedBy_ofText, trim_slashed]
  rfl

/-- What is written at a seam stands between what is before it and after it. -/
theorem IsSeam.exists_cut {before after : Text} (h : IsSeam before after) :
    ∃ front, Text.trim (slashed (before ++ after)) = front ++ Text.trimEnd (slashed after) ∧
      (∀ middle : Text, (∀ c ∈ middle.head?, isBlank c = false) →
        Text.trim (slashed (before ++ (middle ++ '/' :: after))) =
          front ++ (slashed middle ++ '/' :: Text.trimEnd (slashed after))) ∧
      ((∃ path, front = path ++ ['/']) ∨
        front = [] ∧ (Text.trimEnd (slashed after)).head? ≠ some '/') := by
  have hslash : isBlank '/' = false := by decide
  have hmiddle : ∀ middle : Text, slashed (middle ++ '/' :: after) = slashed middle ++ '/' :: slashed after :=
    fun middle => slashed_append middle _
  rcases h with ⟨path, c, hc, rfl⟩ | ⟨rfl, hafter⟩
  · -- white space is taken away on both sides of the slash for itself
    have hbefore : ∀ rest : Text, Text.trim (slashed (path ++ [c] ++ rest)) =
        Text.trimStart (slashed path) ++ ['/'] ++ Text.trimEnd (slashed rest) := by
      intro rest
      rw [slashed_append, slashed_append, slashed_separator hc, List.append_assoc, List.singleton_append,
        Text.trim_append_cons _ _ hslash, List.append_assoc, List.singleton_append]
    refine ⟨Text.trimStart (slashed path) ++ ['/'], hbefore after, fun middle _ => ?_, Or.inl ⟨_, rfl⟩⟩
    rw [hbefore, hmiddle, Text.trimEnd_append_cons _ _ hslash]
  · -- what begins the text is no white space, so only its end is trimmed
    have hstart : ∀ {t : Text}, (∀ c ∈ t.head?, isBlank c = false) →
        Text.trimStart (slashed t) = slashed t := by
      intro t ht
      have hblank := isBlank_head_slashed ht
      cases hslashed : slashed t with
      | nil => rfl
      | cons c rest => exact Text.trimStart_cons_of_not_blank rest (hblank c (by rw [hslashed]; rfl))
    refine ⟨[], ?_, fun middle hblank => ?_, Or.inr ⟨rfl, fun hhead => ?_⟩⟩
    · rw [List.nil_append, Text.trim, hstart fun c hc => (hafter c hc).2, List.nil_append]
    · rw [List.nil_append, hmiddle, Text.trim_append_cons _ _ hslash, List.nil_append, hstart hblank]
    · obtain ⟨more, hmore⟩ := Text.trimEnd_isPrefix (slashed after)
      refine slash_head_slashed (fun c hc => (hafter c hc).1) ?_
      rw [← hmore, List.head?_append, hhead]
      rfl

/-- A part that leads nowhere can be written at any seam. -/
theorem resolveManifestPath_seam (base : Path) {before after : Text} (h : IsSeam before after)
    (middle : Text) (hne : middle ≠ []) (hhead : ∀ c ∈ middle.head?, isBlank c = false ∧ isSeparator c = false)
    (hnowhere : ∀ path more, Path.normalize (path ++ (Path.steps (slashed middle) ++ more)) =
      Path.normalize (path ++ more)) :
    resolveManifestPath base (before ++ (middle ++ '/' :: after)) =
      resolveManifestPath base (before ++ after) := by
  obtain ⟨front, htrim, hmiddle, hfront⟩ := h.exists_cut
  rw [resolveManifestPath_eq, resolveManifestPath_eq, htrim, hmiddle middle fun c hc => (hhead c hc).1]
  rcases hfront with ⟨path, rfl⟩ | ⟨rfl, hafter⟩
  · have hsame : ∀ rest : Text, (path ++ ['/'] ++ rest).head? = (path ++ ['/']).head? := by
      intro rest
      cases path <;> rfl
    rw [hsame, hsame, List.append_assoc, List.append_assoc, List.singleton_append, List.singleton_append,
      Path.steps_append_slash, Path.steps_append_slash, Path.steps_append_slash, ← List.append_assoc,
      hnowhere, List.append_assoc]
  · have hmiddle : (slashed middle ++ '/' :: Text.trimEnd (slashed after)).head? ≠ some '/' := by
      rw [List.head?_append_of_ne_nil _ (by simpa [slashed] using hne)]
      exact slash_head_slashed fun c hc => (hhead c hc).2
    rw [List.nil_append, List.nil_append, if_neg hmiddle, if_neg hafter, Path.steps_append_slash, hnowhere]

/-- **However a path is spelled, it resolves to the same.** -/
theorem resolveManifestPath_of_spelledAlike {a b : Text} (h : SpelledAlike a b) (base : Path) :
    resolveManifestPath base a = resolveManifestPath base b := by
  induction h with
  | refl => rfl
  | symm _ ih => exact ih.symm
  | trans _ _ ih ih' => exact ih.trans ih'
  | trimmed t => rw [resolveManifestPath_eq, resolveManifestPath_eq, trim_slashed, trim_slashed, Text.trim_trim]
  | slash before after =>
    have hslashed : slashed (before ++ '/' :: after) = slashed (before ++ '\\' :: after) := by
      rw [slashed_append, slashed_append]
      rfl
    rw [resolveManifestPath_eq, resolveManifestPath_eq, hslashed]
  | stay hseam =>
    refine (resolveManifestPath_seam base hseam ['.'] (List.cons_ne_nil _ _) ?_ fun path more => rfl).symm
    rintro c ⟨⟩
    exact ⟨by decide, by decide⟩
  | @detour before after name hseam hname =>
    have hsteps : Path.steps (slashed (name ++ "/..".toList)) = [.name name, .parent] := by
      rw [slashed_append, slashed_of_notMem hname.noBackslash]
      show Path.steps (name ++ '/' :: ['.', '.']) = _
      rw [Path.steps_append_slash, Path.steps_name hname.isName]
      rfl
    have hseam := resolveManifestPath_seam base hseam (name ++ "/..".toList)
      (List.append_ne_nil_of_left_ne_nil hname.isName.1 _) ?_ ?_
    · rw [← hseam, List.append_assoc name]
      rfl
    · intro c hc
      rw [List.head?_append_of_ne_nil _ hname.isName.1] at hc
      refine ⟨hname.notBlank c hc, ?_⟩
      rw [isSeparator, Bool.or_eq_false_iff, beq_eq_false_iff_ne, beq_eq_false_iff_ne]
      constructor <;> rintro rfl
      · exact hname.isName.2.2.2 (List.mem_of_mem_head? hc)
      · exact hname.noBackslash (List.mem_of_mem_head? hc)
    · intro path more
      rw [hsteps]
      exact Path.normalize_append_detour path more name

example : resolveManifestPath [.name "App".toList] " src\\x/../.\\A.cs".toList =
    [.name "App".toList, .name "src".toList, .name "A.cs".toList] := by decide +kernel

theorem notMem_join {c : Char} (hc : c ≠ '/') {names : List Text} (h : ∀ name ∈ names, c ∉ name) :
    c ∉ Text.join ['/'] names := by
  fun_induction Text.join ['/'] names with
  | case1 => simp
  | case2 name => exact h name List.mem_cons_self
  | case3 name names _ ih =>
    simp only [List.mem_append, List.mem_singleton, not_or]
    exact ⟨⟨h name List.mem_cons_self, hc⟩, ih fun n hn => h n (List.mem_cons_of_mem _ hn)⟩

/-- Names lead where a search finds them. -/
theorem resolveManifestPath_join (base : Path) {names : List Text} (hnames : ∀ name ∈ names, IsName name)
    (hback : ∀ name ∈ names, '\\' ∉ name) (htrim : Text.trim (Text.join ['/'] names) = Text.join ['/'] names) :
    resolveManifestPath base (Text.join ['/'] names) = Path.normalize (base ++ names.map .name) := by
  rw [resolveManifestPath_eq, slashed_of_notMem (notMem_join (by decide) hback), htrim]
  cases names with
  | nil => rfl
  | cons name names =>
    have hname := hnames name List.mem_cons_self
    have hhead : (Text.join ['/'] (name :: names)).head? = name.head? := by
      cases names with
      | nil => rfl
      | cons => rw [Text.join, List.append_assoc, List.head?_append_of_ne_nil _ hname.1]; simp
    have hsteps : Path.steps (Text.join ['/'] (name :: names)) = (name :: names).map .name := by
      rw [Path.steps, Text.splitAt_join (List.cons_ne_nil _ _) fun n hn => (hnames n hn).2.2.2]
      rw [← List.filterMap_eq_map]
      exact List.filterMap_congr fun n hn => Path.partOf?_name (hnames n hn)
    have hslash : name.head? ≠ some '/' := fun h => hname.2.2.2 (List.mem_of_mem_head? h)
    rw [hsteps, hhead, if_neg hslash]

end Uncomment
