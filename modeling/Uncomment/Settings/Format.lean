import Uncomment.Settings.Basic
import Uncomment.Text.CharClass

/-!
# The configuration file

Settings are written one per line as `key = true` or `key = false`, each key at most once. A key is
written bare or quoted, blanks and tabs may stand anywhere between the parts, and a comment from `#` to
the end of the line may follow. Lines end with a line feed or a carriage return and a line feed, and a
byte order mark at the start is skipped. There are no other keys, values or lines.
-/

namespace Uncomment

/-- A setting that can be configured. -/
inductive SettingKey where
  | keepHeader
  | stripDocs
  deriving DecidableEq, Repr

namespace SettingKey

/-- How the key is written. -/
def name : SettingKey → Text
  | keepHeader => "keep-file-header".toList
  | stripDocs => "strip-doc-comments".toList

/-- The key with a name. -/
def ofName? (name : Text) : Option SettingKey :=
  [keepHeader, stripDocs].find? fun key => key.name == name

/-- The value of a setting. -/
def get (settings : Settings) : SettingKey → Bool
  | keepHeader => settings.keepHeader
  | stripDocs => settings.stripDocs

/-- The settings with another value of one. -/
def set (settings : Settings) (value : Bool) : SettingKey → Settings
  | keepHeader => { settings with keepHeader := value }
  | stripDocs => { settings with stripDocs := value }

end SettingKey

namespace Settings

/-! ## Writing -/

/-- The text of a value. -/
def valueText (value : Bool) : Text :=
  if value then "true".toList else "false".toList

/-- The line of a setting. -/
def renderLine (settings : Settings) (key : SettingKey) : Text :=
  key.name ++ " = ".toList ++ valueText (key.get settings) ++ ['\n']

/-- The settings as a configuration file. -/
def render (settings : Settings) : Text :=
  settings.renderLine .keepHeader ++ settings.renderLine .stripDocs

/-! ## Reading -/

/-- A blank or a tab. -/
def isGap (c : Char) : Bool :=
  c == ' ' || c == '\t'

/-- A character of a key that is not quoted. -/
def isBareKeyChar (c : Char) : Bool :=
  c.isAlphanum || c == '_' || c == '-'

/-- A character that may stand in a comment or in quotes: no control character but the tab. -/
def isVisible (c : Char) : Bool :=
  c == '\t' || (0x20 ≤ c.toNat && c.toNat != 0x7F)

/-- Whether a line ends here: only blanks, and a comment perhaps. -/
def isLineEnd (t : Text) : Bool :=
  match t.dropWhile isGap with
  | [] => true
  | c :: comment => c == '#' && comment.all isVisible

/-- The character with a hexadecimal number of a fixed length, and what follows it. -/
def hexChar? (length : Nat) (t : Text) : Option (Char × Text) :=
  let digits := t.take length
  let n := digits.foldl (fun n c => n * 16 + hexValue c) 0
  if digits.length = length ∧ digits.all isHexDigit ∧ n.isValidChar then
    some (Char.ofNat n, t.drop length)
  else none

/-- What a backslash and the text after it stand for, and what follows. -/
def escape? : Text → Option (Char × Text)
  | 'b' :: rest => some ('\x08', rest)
  | 't' :: rest => some ('\t', rest)
  | 'n' :: rest => some ('\n', rest)
  | 'f' :: rest => some ('\x0c', rest)
  | 'r' :: rest => some ('\r', rest)
  | '"' :: rest => some ('"', rest)
  | '\\' :: rest => some ('\\', rest)
  | 'u' :: rest => hexChar? 4 rest
  | 'U' :: rest => hexChar? 8 rest
  | _ => none

theorem length_of_escape? {t rest : Text} {c : Char} (h : escape? t = some (c, rest)) :
    rest.length < t.length := by
  have hex {n : Nat} {s r : Text} {d : Char} (h : hexChar? n s = some (d, r)) :
      r.length ≤ s.length := by
    unfold hexChar? at h
    dsimp only at h
    split at h
    · simp only [Option.some.injEq, Prod.mk.injEq] at h
      rw [← h.2, List.length_drop]
      omega
    · simp at h
  unfold escape? at h
  split at h
  case h_8 s => have := hex h; simp only [List.length_cons]; omega
  case h_9 s => have := hex h; simp only [List.length_cons]; omega
  all_goals simp_all

/-- The text in double quotes, after the opening one, and what follows the closing one. -/
def doubleQuoted? (t : Text) : Option (Text × Text) :=
  match t with
  | [] => none
  | c :: rest =>
    if c = '"' then some ([], rest)
    else if c = '\\' then
      match _h : escape? rest with
      | some (d, rest) => (doubleQuoted? rest).map fun (text, rest) => (d :: text, rest)
      | none => none
    else if isVisible c then (doubleQuoted? rest).map fun (text, rest) => (c :: text, rest)
    else none
termination_by t.length
decreasing_by
  · have := length_of_escape? ‹_›; simp only [List.length_cons]; omega
  · simp

/-- A key and what follows it. -/
def key? (t : Text) : Option (Text × Text) :=
  match t with
  | '"' :: rest => doubleQuoted? rest
  | '\'' :: rest => do
    let (text, rest) ← Text.cutOnce? '\'' rest
    if text.all isVisible then some (text, rest) else none
  | _ =>
    let name := t.takeWhile isBareKeyChar
    if name.isEmpty then none else some (name, t.dropWhile isBareKeyChar)

/-- The line of a setting. -/
def setting? (line : Text) : Option (SettingKey × Bool) := do
  let (name, rest) ← key? (line.dropWhile isGap)
  let key ← SettingKey.ofName? name
  let rest ← Text.dropStart? ['='] (rest.dropWhile isGap)
  let rest := rest.dropWhile isGap
  let value ← [true, false].find? fun value => (valueText value).isPrefixOf rest
  if isLineEnd (rest.drop (valueText value).length) then some (key, value) else none

/-- Reads the lines of a configuration file onto settings. `seen` are the keys of the lines before. -/
def readLines (settings : Settings) (seen : List SettingKey) : List Text → Option Settings
  | [] => some settings
  | line :: rest =>
    if isLineEnd line then readLines settings seen rest
    else
      match setting? line with
      | some (key, value) =>
        if seen.contains key then none else readLines (key.set settings value) (key :: seen) rest
      | none => none

/-- The settings of a configuration file, if it is one; what it does not mention has its default. -/
def parse? (t : Text) : Option Settings :=
  readLines {} [] (Text.lines ((Text.dropStart? ['\uFEFF'] t).getD t))

end Settings

end Uncomment
