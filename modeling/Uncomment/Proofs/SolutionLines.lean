import Uncomment.Project.Solution
import Uncomment.Proofs.TextCuts

/-!
# Reading what a solution declares

A solution declares a project in one line, with the type, the name, the path and the identifier of the
project in quotes. Here lines are written in this form (`Solution.Line`) and read back, whatever stands
between them and whatever ends them (`projects_written`).

The reader cuts the values at every comma, also at those inside of quotes. So a project is found unless its
name or its path has a comma. With a comma in one of them, what is taken for the path has at most one quote
(`Entry.count_quote_secondValue`), and such a text is not read as a quoted one (`unquoted?_trim_eq_none`).
-/

namespace Uncomment

/-! ## Extensions -/

theorem toLower_eq_point_iff {c : Char} : c.toLower = '.' ↔ c = '.' := by
  constructor
  · intro h
    unfold Char.toLower at h
    split at h
    · next hcapital =>
      -- a capital becomes a letter
      have hmin : 65 ≤ c.val.toNat := UInt32.le_iff_toNat_le.mp hcapital.1
      have hmax : c.val.toNat ≤ 90 := UInt32.le_iff_toNat_le.mp hcapital.2
      have hlower : (c.val + 32).toNat = 46 := congrArg (fun c => c.val.toNat) h
      rw [UInt32.toNat_add] at hlower
      have hgap : (32 : UInt32).toNat = 32 := rfl
      omega
    · exact h
  · rintro rfl
    rfl

theorem point_mem_toLowerAscii {t : Text} : '.' ∈ Text.toLowerAscii t ↔ '.' ∈ t := by
  simp only [Text.toLowerAscii, List.mem_map, toLower_eq_point_iff, exists_eq_right]

/-- **A name has an extension if it ends with it after a point**, whatever the case of the letters. -/
theorem hasExtension_iff {name extension : Text} (h : '.' ∉ extension) :
    hasExtension name extension = true ↔
      '.' :: Text.toLowerAscii extension <:+ Text.toLowerAscii name := by
  rw [← point_mem_toLowerAscii] at h
  unfold hasExtension
  by_cases hpoint : '.' ∈ name
  · obtain ⟨stem, found, rfl, hfound⟩ := Text.exists_last_cut hpoint
    have hlower : Text.toLowerAscii (stem ++ '.' :: found) =
        Text.toLowerAscii stem ++ '.' :: Text.toLowerAscii found := List.map_append
    rw [Text.cutLast?_append_cons hfound, hlower]
    show (Text.toLowerAscii found == Text.toLowerAscii extension) = true ↔ _
    rw [beq_iff_eq]
    constructor
    · intro heq
      rw [heq]
      exact List.suffix_append _ _
    · rintro ⟨before, hsuffix⟩
      rw [← point_mem_toLowerAscii] at hfound
      have hcut := Text.cutLast?_append_cons (a := before) h
      rw [hsuffix, Text.cutLast?_append_cons hfound] at hcut
      exact (Prod.mk.inj (Option.some.inj hcut)).2
  · rw [Text.cutLast?_of_notMem hpoint]
    simp only [Bool.false_eq_true, false_iff]
    intro hsuffix
    exact hpoint (point_mem_toLowerAscii.mp (hsuffix.subset List.mem_cons_self))

namespace Solution

/-! ## Lines as they are written -/

/-- The characters of types and identifiers: hexadecimal digits, hyphens and braces. -/
def isIdentifierMark (c : Char) : Bool :=
  isHexDigit c || c == '-' || c == '{' || c == '}'

/-- A text in quotes. -/
def quoted (t : Text) : Text :=
  '"' :: t ++ ['"']

/-- A project as a solution declares it. -/
structure Entry where
  type : Text
  name : Text
  path : Text
  identifier : Text
  type_marks : ∀ c ∈ type, isIdentifierMark c = true
  identifier_marks : ∀ c ∈ identifier, isIdentifierMark c = true
  name_quotable : '"' ∉ name ∧ '\n' ∉ name
  path_quotable : '"' ∉ path ∧ '\n' ∉ path

namespace Entry

/-- What stands after the equals sign. -/
def values (e : Entry) : Text :=
  ' ' :: quoted e.name ++ ',' :: ' ' :: quoted e.path ++ ',' :: ' ' :: quoted e.identifier

/-- The declaration of the project, without the white space before it. -/
def text (e : Entry) : Text :=
  "Project(".toList ++ quoted e.type ++ [')', ' '] ++ '=' :: e.values

/-- Whether the path is that of a project file. -/
def isProject (e : Entry) : Bool :=
  ".csproj".toList.isSuffixOf (Text.toLowerAscii e.path)

/-- Whether the name or the path has a comma. -/
def hasComma (e : Entry) : Bool :=
  e.name.contains ',' || e.path.contains ','

end Entry

/-- A line of a solution: a project, or something that does not begin like one. -/
inductive Line where
  | project (indentation : Text) (entry : Entry)
      (indentation_blank : ∀ c ∈ indentation, isBlank c = true ∧ c ≠ '\n')
  | other (text : Text) (feed_notMem : '\n' ∉ text)
      (no_project : ¬ "Project(".toList <+: Text.trimStart text)

/-- The text of a line without what ends it. -/
def Line.text : Line → Text
  | project indentation entry _ => indentation ++ entry.text
  | other text _ _ => text

/-- The project of a line. -/
def Line.entry? : Line → Option Entry
  | project _ entry _ => some entry
  | other _ _ _ => none

/-- What ends a line. -/
inductive LineEnd where
  | feed
  | returnFeed

/-- The text of what ends a line. -/
def LineEnd.text : LineEnd → Text
  | feed => ['\n']
  | returnFeed => ['\r', '\n']

/-- The text of a solution, the last line of which is not ended. -/
def written (lines : List (Line × LineEnd)) (last : Line) : Text :=
  lines.flatMap (fun (line, ending) => line.text ++ ending.text) ++ last.text

/-- The projects of the lines. -/
def entries (lines : List (Line × LineEnd)) (last : Line) : List Entry :=
  (lines.map Prod.fst ++ [last]).filterMap Line.entry?

/-! ## Reading the line of a project -/

/-- A text in quotes has two of them. -/
theorem unquoted?_trim_eq_none {t : Text} (h : t.count '"' ≤ 1) : unquoted? (Text.trim t) = none := by
  rw [Option.eq_none_iff_forall_ne_some]
  intro inside hinside
  obtain ⟨rest, hrest, hinside⟩ := Option.bind_eq_some_iff.mp hinside
  have htrim : Text.trim t = ['"'] ++ (inside ++ ['"']) := by
    rw [Text.dropStart?_eq_some hrest, Text.dropEnd?_eq_some hinside]
  have hcount := (Text.trim_sublist t).count_le '"'
  rw [htrim, List.count_append, List.count_append, List.count_singleton_self] at hcount
  omega

theorem unquoted?_quoted (t : Text) : unquoted? (quoted t) = some t := by
  have hstart : Text.dropStart? ['"'] (quoted t) = some (t ++ ['"']) :=
    Text.dropStart?_append ['"'] (t ++ ['"'])
  rw [unquoted?, hstart]
  exact Text.dropEnd?_append t ['"']

/-- What is read from a line, given where it is cut. -/
theorem projectPath?_of_cut {line declaration values : Text}
    (h : Text.cutOnce? '=' (Text.trimStart line) = some (declaration, values)) :
    projectPath? line =
      if "Project(".toList.isPrefixOf (Text.trimEnd declaration) then
        (Text.splitAt ',' values)[1]?.bind fun value => unquoted? (Text.trim value)
      else none := by
  unfold projectPath?
  rw [h]
  cases hproject : "Project(".toList.isPrefixOf (Text.trimEnd declaration) <;>
    simp only [Option.bind_eq_bind, Option.bind_some, hproject] <;> rfl

/-- Only a line that begins like a project is read as one. -/
theorem projectPath?_eq_none {line : Text} (h : ¬ "Project(".toList <+: Text.trimStart line) :
    projectPath? line = none := by
  cases hcut : Text.cutOnce? '=' (Text.trimStart line) with
  | none =>
    unfold projectPath?
    rw [hcut]
    rfl
  | some cut =>
    obtain ⟨declaration, values⟩ := cut
    rw [projectPath?_of_cut hcut, if_neg]
    intro hproject
    rw [Text.cutOnce?_eq_some hcut] at h
    exact h (((List.isPrefixOf_iff_prefix.mp hproject).trans (Text.trimEnd_isPrefix declaration)).trans
      (List.prefix_append _ _))

namespace Entry

variable (e : Entry)

/-- What the reader takes for the path: the text between the first two commas of the values. -/
def secondValue : Option Text :=
  (Text.splitAt ',' e.values)[1]?

/-- Without a comma in the name, the second value begins right after it. -/
theorem secondValue_of_name (h : ',' ∉ e.name) :
    e.secondValue =
      some ((' ' :: quoted e.path ++ ',' :: ' ' :: quoted e.identifier).takeWhile (· != ',')) := by
  have hname : ',' ∉ ' ' :: quoted e.name := by simpa [quoted] using h
  have hvalues : e.values =
      (' ' :: quoted e.name) ++ ',' :: (' ' :: quoted e.path ++ ',' :: ' ' :: quoted e.identifier) :=
    List.append_assoc _ _ _
  rw [secondValue, hvalues, Text.getElem?_one_splitAt hname]

theorem secondValue_of_no_comma (h : e.hasComma = false) :
    e.secondValue = some (' ' :: quoted e.path) := by
  simp only [hasComma, Bool.or_eq_false_iff, List.contains_eq_mem, decide_eq_false_iff_not] at h
  have hpath : ',' ∉ ' ' :: quoted e.path := by simpa [quoted] using h.2
  rw [e.secondValue_of_name h.1, Text.takeWhile_append_cons_of_notMem hpath]

/-- With a comma in the name or the path, the second value begins or ends inside of quotes. -/
theorem count_quote_secondValue (h : e.hasComma = true) {value : Text}
    (hvalue : e.secondValue = some value) : value.count '"' ≤ 1 := by
  have hprefix : ∀ {before more : Text}, before.count '"' ≤ 1 →
      ((before ++ ',' :: more).takeWhile (· != ',')).count '"' ≤ 1 :=
    fun hcount => Nat.le_trans ((Text.takeWhile_append_cons_isPrefix _ _).sublist.count_le _) hcount
  by_cases hname : ',' ∈ e.name
  · obtain ⟨before, after, hsplit, hbefore⟩ := List.eq_append_cons_of_mem hname
    have hvalues : e.values = (' ' :: '"' :: before) ++ ',' ::
        ((after ++ ['"']) ++ ',' :: (' ' :: quoted e.path ++ ',' :: ' ' :: quoted e.identifier)) := by
      simp [values, quoted, hsplit]
    have hafter : '"' ∉ after := fun hmem =>
      e.name_quotable.1 (hsplit ▸ List.mem_append_right _ (List.mem_cons_of_mem _ hmem))
    rw [secondValue, hvalues, Text.getElem?_one_splitAt (by simpa using hbefore)] at hvalue
    cases hvalue
    refine hprefix ?_
    simp [List.count_eq_zero_of_not_mem hafter]
  · have hpath : ',' ∈ e.path := by simpa [hasComma, hname] using h
    obtain ⟨before, after, hsplit, -⟩ := List.eq_append_cons_of_mem hpath
    have hvalues : ' ' :: quoted e.path ++ ',' :: ' ' :: quoted e.identifier =
        (' ' :: '"' :: before) ++ ',' :: (after ++ ['"'] ++ ',' :: ' ' :: quoted e.identifier) := by
      simp [quoted, hsplit]
    have hbefore : '"' ∉ before := fun hmem =>
      e.path_quotable.1 (hsplit ▸ List.mem_append_left _ hmem)
    rw [e.secondValue_of_name hname, hvalues] at hvalue
    cases hvalue
    refine hprefix ?_
    simp [List.count_eq_zero_of_not_mem hbefore]

theorem trimStart_text : Text.trimStart e.text = e.text := by
  have hproject : "Project(".toList = 'P' :: "roject(".toList := by simp
  unfold text
  rw [hproject]
  exact Text.trimStart_cons_of_not_blank _ rfl

/-- **The line of a project is read unless it has a comma** that does not separate values. -/
theorem projectPath?_line {indentation : Text} (h : ∀ c ∈ indentation, isBlank c = true) :
    projectPath? (indentation ++ e.text) = if e.hasComma then none else some e.path := by
  have hequals : '=' ∉ "Project(".toList ++ quoted e.type ++ [')', ' '] := by
    have htype : '=' ∉ e.type := fun hmem => absurd (e.type_marks '=' hmem) (by decide)
    simpa [quoted] using htype
  have hcut : Text.cutOnce? '=' (Text.trimStart (indentation ++ e.text)) =
      some ("Project(".toList ++ quoted e.type ++ [')', ' '], e.values) := by
    rw [Text.trimStart_append_of_blank _ h, e.trimStart_text]
    exact Text.cutOnce?_append_cons hequals
  have hdeclaration : Text.trimEnd ("Project(".toList ++ quoted e.type ++ [')', ' ']) =
      "Project(".toList ++ (quoted e.type ++ [')']) := by
    have hsplit : "Project(".toList ++ quoted e.type ++ [')', ' '] =
        ("Project(".toList ++ quoted e.type ++ [')']) ++ [' '] := by simp
    rw [hsplit, Text.trimEnd_concat_of_blank _ rfl, Text.trimEnd_concat_of_not_blank _ rfl,
      List.append_assoc]
  rw [projectPath?_of_cut hcut, hdeclaration,
    if_pos (List.isPrefixOf_iff_prefix.mpr (List.prefix_append _ _))]
  show e.secondValue.bind (fun value => unquoted? (Text.trim value)) = _
  cases hcomma : e.hasComma with
  | true =>
    rw [if_pos rfl, Option.bind_eq_none_iff]
    exact fun value hvalue => unquoted?_trim_eq_none (e.count_quote_secondValue hcomma hvalue)
  | false =>
    have htrim : Text.trim (' ' :: quoted e.path) = quoted e.path := by
      have hstart : Text.trimStart (' ' :: quoted e.path) = ('"' :: e.path) ++ ['"'] := rfl
      rw [Text.trim, hstart, Text.trimEnd_concat_of_not_blank _ rfl]
      rfl
    rw [e.secondValue_of_no_comma hcomma, Option.bind_some, htrim, unquoted?_quoted]
    rfl

theorem hasExtension_path : hasExtension e.path projectExtension = e.isProject := by
  have hpoint : '.' ∉ projectExtension := by decide
  have hextension : '.' :: Text.toLowerAscii projectExtension = ".csproj".toList := by decide
  rw [Bool.eq_iff_iff, hasExtension_iff hpoint, hextension, isProject, List.isSuffixOf_iff_suffix]

theorem feed_notMem_text : '\n' ∉ e.text := by
  have hmarks : ∀ {t : Text}, (∀ c ∈ t, isIdentifierMark c = true) → '\n' ∉ t :=
    fun h hmem => absurd (h '\n' hmem) (by decide)
  have htype := hmarks e.type_marks
  have hidentifier := hmarks e.identifier_marks
  unfold text values quoted
  simp [htype, hidentifier, e.name_quotable.2, e.path_quotable.2]

theorem getLast?_text : e.text.getLast? = some '"' := by
  have hsplit : e.text = ("Project(".toList ++ quoted e.type ++ [')', ' '] ++ '=' :: (' ' :: quoted e.name ++
      ',' :: ' ' :: quoted e.path ++ ',' :: ' ' :: '"' :: e.identifier)) ++ ['"'] := by
    unfold text values quoted
    simp
  rw [hsplit, List.getLast?_concat]

end Entry

/-! ## Reading all lines -/

namespace Line

/-- The path that is read from a line. -/
def path? (line : Line) : Option Text :=
  line.entry?.bind fun e => if e.hasComma then none else some e.path

theorem feed_notMem_text (line : Line) : '\n' ∉ line.text := by
  cases line with
  | project indentation entry hblank =>
    exact List.not_mem_append (fun hmem => (hblank '\n' hmem).2 rfl) entry.feed_notMem_text
  | other text hfeed => exact hfeed

theorem projectPath?_text (line : Line) : projectPath? line.text = line.path? := by
  cases line with
  | project indentation entry hblank => exact entry.projectPath?_line fun c hc => (hblank c hc).1
  | other text _ hproject => exact projectPath?_eq_none hproject

/-- A carriage return at the end of a line makes no difference if it is taken for a part of what ends the
line. -/
theorem projectPath?_of_return {line : Line} {t : Text} (h : line.text = t ++ ['\r']) :
    projectPath? t = line.path? := by
  cases line with
  | project indentation entry =>
    have hlast : (indentation ++ entry.text).getLast? = some '\r' := by
      rw [show indentation ++ entry.text = t ++ ['\r'] from h, List.getLast?_concat]
    rw [List.getLast?_append, entry.getLast?_text] at hlast
    cases hlast
  | other text _ hproject =>
    refine projectPath?_eq_none fun hstart => hproject ?_
    rw [show text = t ++ ['\r'] from h]
    exact Text.isPrefix_trimStart_append _ (by simp) hstart

end Line

/-- **Every line is read as it was written**, whatever ends it. -/
theorem filterMap_lines_written (lines : List (Line × LineEnd)) (last : Line) :
    (Text.lines (written lines last)).filterMap projectPath? =
      (lines.map Prod.fst ++ [last]).filterMap Line.path? := by
  induction lines with
  | nil =>
    show (Text.lines last.text).filterMap projectPath? = [last].filterMap Line.path?
    rw [Text.lines_of_notMem last.feed_notMem_text, List.filterMap_cons, ← last.projectPath?_text]
    split
    · next hempty =>
      rw [hempty]
      rfl
    · rfl
  | cons first rest ih =>
    obtain ⟨line, ending⟩ := first
    have hfeed := line.feed_notMem_text
    have hread : ∃ t, Text.lines (written ((line, ending) :: rest) last) =
        t :: Text.lines (written rest last) ∧ projectPath? t = line.path? := by
      cases ending with
      | feed =>
        have hwritten : written ((line, .feed) :: rest) last = line.text ++ '\n' :: written rest last := by
          simp [written, LineEnd.text]
        rw [hwritten, Text.lines_append_feed _ hfeed]
        refine ⟨_, rfl, ?_⟩
        cases hreturn : Text.dropEnd? ['\r'] line.text with
        | none => exact line.projectPath?_text
        | some t => exact Line.projectPath?_of_return (Text.dropEnd?_eq_some hreturn)
      | returnFeed =>
        have hwritten : written ((line, .returnFeed) :: rest) last =
            (line.text ++ ['\r']) ++ '\n' :: written rest last := by
          simp [written, LineEnd.text]
        rw [hwritten, Text.lines_append_feed _ (by simpa using hfeed), Text.dropEnd?_append]
        exact ⟨_, rfl, line.projectPath?_text⟩
    obtain ⟨t, hlines, ht⟩ := hread
    rw [hlines, List.filterMap_cons, ht, ih]
    exact List.filterMap_cons.symm

/-- The paths that are read are those of the projects without a comma. -/
theorem filterMap_path? (lines : List Line) :
    lines.filterMap Line.path? =
      ((lines.filterMap Line.entry?).filter fun e => !e.hasComma).map Entry.path := by
  induction lines with
  | nil => rfl
  | cons line rest ih =>
    cases hentry : line.entry? with
    | none =>
      have hpath : line.path? = none := by rw [Line.path?, hentry, Option.bind_none]
      rw [List.filterMap_cons_none hpath, List.filterMap_cons_none hentry, ih]
    | some e =>
      rw [List.filterMap_cons_some hentry]
      cases hcomma : e.hasComma with
      | true =>
        have hpath : line.path? = none := by simp [Line.path?, hentry, hcomma]
        rw [List.filterMap_cons_none hpath, List.filter_cons_of_neg (by simp [hcomma]), ih]
      | false =>
        have hpath : line.path? = some e.path := by simp [Line.path?, hentry, hcomma]
        rw [List.filterMap_cons_some hpath, List.filter_cons_of_pos (by simp [hcomma]), ih, List.map_cons]

/-- **A solution lists its projects.** Of the projects that the lines of a solution declare, those are found,
in order, of which the path ends with `.csproj`, whatever the case of its letters, and neither the name nor
the path has a comma. -/
theorem projects_written (directory : Path) (lines : List (Line × LineEnd)) (last : Line) :
    projects directory (written lines last) =
      ((entries lines last).filter fun e => e.isProject && !e.hasComma).map fun e =>
        resolveManifestPath directory e.path := by
  rw [projects, filterMap_lines_written, filterMap_path?, List.filter_map, List.filter_filter, List.map_map]
  refine congrArg (List.map _) (List.filter_congr fun e _ => ?_)
  rw [Function.comp_apply, e.hasExtension_path]

/-- A project with a comma in its name is not found, though it has the path of a project file. -/
theorem projects_lose_comma :
    ∃ (lines : List (Line × LineEnd)) (last : Line),
      written lines last =
        "Project(\"{FAE04EC0-301F}\") = \"App, Core\", \"App\\App.csproj\", \"{1111-2222}\"\n".toList ∧
      projects [.current] (written lines last) = [] ∧
      ((entries lines last).filter Entry.isProject).map (fun e => resolveManifestPath [.current] e.path) =
        [[.name "App".toList, .name "App.csproj".toList]] := by
  let e : Entry :=
    { type := "{FAE04EC0-301F}".toList, name := "App, Core".toList, path := "App\\App.csproj".toList
      identifier := "{1111-2222}".toList, type_marks := List.all_eq_true.mp (by decide)
      identifier_marks := List.all_eq_true.mp (by decide)
      name_quotable := by decide, path_quotable := by decide }
  exact ⟨[(.project [] e (by simp), .feed)], .other [] (by simp) (by simp [Text.trimStart]), by decide +kernel,
    by decide +kernel, by decide +kernel⟩

end Solution

end Uncomment
