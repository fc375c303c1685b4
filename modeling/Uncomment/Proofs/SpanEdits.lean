import Mathlib.Data.List.Chain
import Mathlib.Data.List.Forall2
import Uncomment.Proofs.Acceptance
import Uncomment.Proofs.StrippedSpans

/-!
# What stripping touches

What the two rules do to a span is written down as an **edit script**: trivium by trivium, whether it was
kept or dropped, and where a line break was added. The span before and the span after are read off the
script, so the order of what stays is part of it, and so is what stood next to what.

Each rule has a script (`LineScript`, `BlockScript`), and the script of the second rule can be carried
back along that of the first (`EditScript.Composed`). Nothing is dropped but comments and what is next to
them, and a line break is added only for a removed comment that had one.

In a text the blanks that go always stood right before a comment that goes. That takes the lexer: two
runs of blanks never stand side by side (`isChain_blanksApart`), so no blanks can come to stand before a
comment when the first rule has taken out what was between them.
-/

namespace Uncomment

/-! ## Edit scripts -/

/-- What becomes of a trivium, or a line break that is new. -/
inductive SpanEdit where
  | kept (x : Trivium)
  | dropped (x : Trivium)
  | added (n : Trivium)
  deriving DecidableEq, Repr

namespace SpanEdit

/-- The trivium as it stood in the span before. -/
def before? : SpanEdit → Option Trivium
  | kept x | dropped x => some x
  | added _ => none

/-- The trivium as it stands in the span after. -/
def after? : SpanEdit → Option Trivium
  | kept x | added x => some x
  | dropped _ => none

/-- The trivium, if it is dropped. -/
def dropped? : SpanEdit → Option Trivium
  | dropped x => some x
  | kept _ | added _ => none

/-- The trivium, if it is new. -/
def added? : SpanEdit → Option Trivium
  | added n => some n
  | kept _ | dropped _ => none

end SpanEdit

/-- What becomes of a span, in order. -/
abbrev EditScript := List SpanEdit

namespace EditScript

/-- The span before. -/
def before (script : EditScript) : Trivia := script.filterMap SpanEdit.before?

/-- The span after. -/
def after (script : EditScript) : Trivia := script.filterMap SpanEdit.after?

/-- What is dropped, in order. -/
def dropped (script : EditScript) : Trivia := script.filterMap SpanEdit.dropped?

/-- What is added, in order. -/
def added (script : EditScript) : Trivia := script.filterMap SpanEdit.added?

/-- Blanks that are dropped have a comment right after them that is dropped too. -/
def BlanksGoWithComments (stripDocs : Bool) : EditScript → Prop
  | [] => True
  | e :: rest =>
    (∀ b, e = .dropped b → b.kind = .whitespace →
      ∃ c more, rest = .dropped c :: more ∧ c.isRemovable stripDocs = true) ∧
    BlanksGoWithComments stripDocs rest

end EditScript

/-- A line break stands in for a removed comment that spans lines. -/
structure StandsFor (stripDocs : Bool) (n comment : Trivium) : Prop where
  isBlock : comment.classify stripDocs = .blockComment
  spansLines : '\r' ∈ comment.text ∨ '\n' ∈ comment.text
  kind : n.kind = .newline
  text : n.text = ['\n'] ∨ n.text = ['\r'] ∨ n.text = ['\r', '\n']

/-- A script turns a span into its stripped form: what the rules have no business with is not dropped,
and each line break that is added stands in for a dropped comment, another one for each. -/
structure EditScript.Strips (stripDocs : Bool) (xs ys : Trivia) (script : EditScript) : Prop where
  before_eq : script.before = xs
  after_eq : script.after = ys
  dropped_ne : ∀ x ∈ script.dropped, x.classify stripDocs ≠ .other
  added_for : ∃ comments, comments.Sublist script.dropped ∧
    List.Forall₂ (StandsFor stripDocs) script.added comments

namespace EditScript

@[simp] theorem before_nil : before [] = [] := rfl

@[simp] theorem after_nil : after [] = [] := rfl

@[simp] theorem dropped_nil : dropped [] = [] := rfl

@[simp] theorem added_nil : added [] = [] := rfl

section

variable (x : Trivium) (script : EditScript)

@[simp] theorem before_kept : before (.kept x :: script) = x :: before script := rfl

@[simp] theorem before_dropped : before (.dropped x :: script) = x :: before script := rfl

@[simp] theorem before_added : before (.added x :: script) = before script := rfl

@[simp] theorem after_kept : after (.kept x :: script) = x :: after script := rfl

@[simp] theorem after_dropped : after (.dropped x :: script) = after script := rfl

@[simp] theorem after_added : after (.added x :: script) = x :: after script := rfl

@[simp] theorem dropped_kept : dropped (.kept x :: script) = dropped script := rfl

@[simp] theorem dropped_dropped : dropped (.dropped x :: script) = x :: dropped script := rfl

@[simp] theorem dropped_added : dropped (.added x :: script) = dropped script := rfl

@[simp] theorem added_kept : added (.kept x :: script) = added script := rfl

@[simp] theorem added_dropped : added (.dropped x :: script) = added script := rfl

@[simp] theorem added_added : added (.added x :: script) = x :: added script := rfl

end

/-! ## One script after another -/

/-- A script does what two scripts do one after the other. What the first drops goes as early as it
can. -/
inductive Composed : EditScript → EditScript → EditScript → Prop
  | nil : Composed [] [] []
  | dropped {x : Trivium} {first second script : EditScript} (h : Composed first second script) :
      Composed (.dropped x :: first) second (.dropped x :: script)
  | added {n : Trivium} {first second script : EditScript}
      (hfirst : ∀ x more, first ≠ .dropped x :: more) (h : Composed first second script) :
      Composed first (.added n :: second) (.added n :: script)
  | kept {x : Trivium} {first second script : EditScript} (h : Composed first second script) :
      Composed (.kept x :: first) (.kept x :: second) (.kept x :: script)
  | later {x : Trivium} {first second script : EditScript} (h : Composed first second script) :
      Composed (.kept x :: first) (.dropped x :: second) (.dropped x :: script)

/-- A script can follow one that adds nothing, if it begins where that one ends. -/
theorem exists_composed {first second : EditScript} (hadded : first.added = [])
    (hmiddle : second.before = first.after) : ∃ script, Composed first second script := by
  induction first generalizing second with
  | nil =>
    induction second with
    | nil => exact ⟨[], .nil⟩
    | cons e second ih =>
      cases e with
      | kept x => simp at hmiddle
      | dropped x => simp at hmiddle
      | added n =>
        obtain ⟨script, h⟩ := ih (by simpa using hmiddle)
        exact ⟨_, .added (by simp) h⟩
  | cons e first ih =>
    cases e with
    | dropped x =>
      obtain ⟨script, h⟩ := ih hadded hmiddle
      exact ⟨_, .dropped h⟩
    | added n => simp at hadded
    | kept x =>
      -- The second script may add before it comes to `x`, so it is walked along inside.
      induction second with
      | nil => simp at hmiddle
      | cons f second ih' =>
        cases f with
        | added n =>
          obtain ⟨script, h⟩ := ih' (by simpa using hmiddle)
          exact ⟨_, .added (by simp) h⟩
        | kept y =>
          obtain ⟨rfl, hrest⟩ : y = x ∧ before second = after first := by simpa using hmiddle
          obtain ⟨script, h⟩ := ih hadded hrest
          exact ⟨_, .kept h⟩
        | dropped y =>
          obtain ⟨rfl, hrest⟩ : y = x ∧ before second = after first := by simpa using hmiddle
          obtain ⟨script, h⟩ := ih hadded hrest
          exact ⟨_, .later h⟩

namespace Composed

variable {first second script : EditScript}

theorem before_eq (h : Composed first second script) : script.before = first.before := by
  induction h with
  | nil => rfl
  | dropped _ ih | kept _ ih | later _ ih => simp [ih]
  | added _ _ ih => simpa using ih

theorem after_eq (h : Composed first second script) : script.after = second.after := by
  induction h with
  | nil => rfl
  | dropped _ ih => simpa using ih
  | added _ _ ih => simp [ih]
  | kept _ ih => simp [ih]
  | later _ ih => simpa using ih

theorem added_eq (h : Composed first second script) : script.added = second.added := by
  induction h with
  | nil => rfl
  | dropped _ ih => simpa using ih
  | added _ _ ih => simp [ih]
  | kept _ ih => simpa using ih
  | later _ ih => simpa using ih

theorem dropped_sublist (h : Composed first second script) :
    second.dropped.Sublist script.dropped := by
  induction h with
  | nil => exact .slnil
  | dropped _ ih => exact ih.cons _
  | added _ _ ih => exact ih
  | kept _ ih => exact ih
  | later _ ih => exact ih.cons_cons _

theorem mem_dropped (h : Composed first second script) {x : Trivium} (hx : x ∈ script.dropped) :
    x ∈ first.dropped ∨ x ∈ second.dropped := by
  induction h with
  | nil => simp at hx
  | dropped _ ih =>
    rcases List.mem_cons.mp hx with rfl | hx
    · exact Or.inl (by simp)
    · exact (ih hx).imp_left fun h => by simp [h]
  | added _ _ ih => exact ih hx
  | kept _ ih => exact ih hx
  | later _ ih =>
    rcases List.mem_cons.mp hx with rfl | hx
    · exact Or.inr (by simp)
    · exact (ih hx).imp_right fun h => by simp [h]

end Composed

end EditScript

/-! ## Blanks -/

/-- Two runs of blanks do not stand side by side. -/
def BlanksApart (x y : Trivium) : Prop :=
  x.kind = .whitespace → y.kind ≠ .whitespace

/-- What is dropped right after blanks that are kept is blanks too. -/
def KeepsNext (e f : SpanEdit) : Prop :=
  ∀ b d, e = .kept b → f = .dropped d → b.kind = .whitespace → d.kind = .whitespace

/-- Blanks go with comments in a script if they do in both scripts it is composed of, as long as nothing
between blanks and a comment is dropped by the first. -/
theorem EditScript.Composed.blanksGoWithComments {stripDocs : Bool}
    {first second script : EditScript} (h : Composed first second script)
    (hfirst : first.BlanksGoWithComments stripDocs)
    (hsecond : second.BlanksGoWithComments stripDocs) (hnext : first.IsChain KeepsNext)
    (hapart : first.before.IsChain BlanksApart) : script.BlanksGoWithComments stripDocs := by
  induction h with
  | nil => exact trivial
  | @dropped x first second script h ih =>
    refine ⟨fun b heq hb => ?_, ih hfirst.2 hsecond hnext.tail hapart.tail⟩
    obtain ⟨c, more, rfl, hc⟩ := hfirst.1 b heq hb
    cases h with
    | dropped => exact ⟨c, _, rfl, hc⟩
    | added hnot => exact absurd rfl (hnot c more)
  | added _ _ ih => exact ⟨by simp, ih hfirst hsecond.2 hnext hapart⟩
  | kept _ ih => exact ⟨by simp, ih hfirst.2 hsecond.2 hnext.tail hapart.tail⟩
  | @later x first second script h ih =>
    refine ⟨fun b heq hb => ?_, ih hfirst.2 hsecond.2 hnext.tail hapart.tail⟩
    obtain ⟨c, more, rfl, hc⟩ := hsecond.1 b heq hb
    obtain rfl : x = b := by simpa using heq
    cases h with
    | dropped =>
      -- The blanks and what was dropped after them would stand side by side.
      have hd := (List.isChain_cons_cons.mp hnext).1 x _ rfl rfl hb
      exact absurd hd ((List.isChain_cons_cons.mp hapart).1 hb)
    | later => exact ⟨c, _, rfl, hc⟩

/-! ## The script of the line rule -/

variable {context : SpanContext}

/-- The line break after a removed comment, as an edit. -/
def SpanContext.breakEdit (context : SpanContext) (n : Trivium) : SpanEdit :=
  if context.collapse then .dropped n else .kept n

@[simp] theorem before_breakEdit (n : Trivium) (script : EditScript) :
    EditScript.before (context.breakEdit n :: script) = n :: script.before := by
  unfold SpanContext.breakEdit
  split <;> rfl

@[simp] theorem after_breakEdit (n : Trivium) (script : EditScript) :
    EditScript.after (context.breakEdit n :: script) = context.breakAfter n ++ script.after := by
  unfold SpanContext.breakEdit SpanContext.breakAfter
  split <;> rfl

@[simp] theorem added_breakEdit (n : Trivium) (script : EditScript) :
    EditScript.added (context.breakEdit n :: script) = script.added := by
  unfold SpanContext.breakEdit
  split <;> rfl

theorem mem_dropped_breakEdit {n x : Trivium} {script : EditScript}
    (h : x ∈ EditScript.dropped (context.breakEdit n :: script)) : x = n ∨ x ∈ script.dropped := by
  unfold SpanContext.breakEdit at h
  split at h
  · simpa using h
  · exact Or.inr h

/-- What the line rule does to a span. -/
structure LineScript (context : SpanContext) (xs ys : Trivia) (script : EditScript) : Prop where
  before_eq : script.before = xs
  after_eq : script.after = ys
  added_eq : script.added = []
  dropped_ne : ∀ x ∈ script.dropped, x.classify context.stripDocs ≠ .other
  first : ∀ d more, script = .dropped d :: more →
    d.classify context.stripDocs = .inlineWhitespace ∨ d.classify context.stripDocs = .lineComment
  keepsNext : script.IsChain KeepsNext
  blanks : LinesEnd context.atEnd xs → script.BlanksGoWithComments context.stripDocs

/-- A script that adds nothing begins with what the span begins with. -/
theorem EditScript.exists_cons {script : EditScript} {x : Trivium} {xs : Trivia}
    (hadded : script.added = []) (hbefore : script.before = x :: xs) :
    ∃ rest, script = .kept x :: rest ∨ script = .dropped x :: rest := by
  cases script with
  | nil => simp at hbefore
  | cons e rest =>
    cases e with
    | kept y =>
      obtain ⟨rfl, _⟩ : y = x ∧ before rest = xs := by simpa using hbefore
      exact ⟨rest, Or.inl rfl⟩
    | dropped y =>
      obtain ⟨rfl, _⟩ : y = x ∧ before rest = xs := by simpa using hbefore
      exact ⟨rest, Or.inr rfl⟩
    | added n => simp at hadded

theorem isChain_cons_of_not_kept {e : SpanEdit} {script : EditScript}
    (he : ∀ b, e = .kept b → b.kind ≠ .whitespace) (h : script.IsChain KeepsNext) :
    List.IsChain KeepsNext (e :: script) :=
  List.isChain_cons.mpr ⟨fun _ _ b _ hb _ hblank => absurd hblank (he b hb), h⟩

theorem EditScript.blanksGoWithComments_cons {stripDocs : Bool} {e : SpanEdit} {script : EditScript}
    (he : ∀ b, e = .dropped b → b.kind ≠ .whitespace) (h : script.BlanksGoWithComments stripDocs) :
    BlanksGoWithComments stripDocs (e :: script) :=
  ⟨fun b hb hblank => absurd hblank (he b hb), h⟩

theorem kind_breakEdit {n : Trivium} (hn : n.classify context.stripDocs = .lineBreak) :
    (∀ b, context.breakEdit n = .kept b → b.kind ≠ .whitespace) ∧
      ∀ b, context.breakEdit n = .dropped b → b.kind ≠ .whitespace := by
  have hkind := kind_of_lineBreak hn
  unfold SpanContext.breakEdit
  split
  · simp [hkind]
  · simp [hkind]

theorem ne_whitespace_of_isComment {x : Trivium} (h : x.kind.isComment = true) :
    x.kind ≠ .whitespace := by
  intro hkind
  simp [hkind, TriviumKind.isComment] at h

/-- **The line rule has a script.** -/
theorem LineStripped.exists_script {xs ys : Trivia} (h : LineStripped context xs ys) :
    ∃ script, LineScript context xs ys script := by
  induction h with
  | nil => exact ⟨[], rfl, rfl, rfl, by simp, by simp, .nil, fun _ => trivial⟩
  | @keep x xs ys hblank _ h ih =>
    obtain ⟨script, hs⟩ := ih
    refine ⟨.kept x :: script, by simp [hs.before_eq], by simp [hs.after_eq], by simp [hs.added_eq],
      by simpa using hs.dropped_ne, by simp, ?_, fun hends => ?_⟩
    · refine List.isChain_cons.mpr ⟨fun f hf b d hb hd hkind => ?_, hs.keepsNext⟩
      -- What is dropped next is no line comment, or the blanks would have gone.
      obtain rfl : x = b := by simpa using hb
      obtain ⟨more, rfl⟩ := List.head?_eq_some_iff.mp hf
      subst hd
      have hnext : context.nextClass xs = some (d.classify context.stripDocs) := by
        rw [← hs.before_eq]
        rfl
      rcases hs.first d more rfl with hclass | hclass
      · exact kind_of_inlineWhitespace hclass
      · rw [hclass] at hnext
        exact absurd hnext (hblank (by simp [Trivium.classify, hkind]))
    · exact EditScript.blanksGoWithComments_cons (by simp) (hs.blanks hends.2)
  | @blank b xs ys hb hn h ih =>
    obtain ⟨script, hs⟩ := ih
    refine ⟨.dropped b :: script, by simp [hs.before_eq], by simpa using hs.after_eq,
      by simpa using hs.added_eq, ?_, ?_, isChain_cons_of_not_kept (by simp) hs.keepsNext,
      fun hends => ⟨fun _ _ _ => ?_, hs.blanks hends.2⟩⟩
    · simpa [hb] using hs.dropped_ne
    · intro d more heq
      obtain ⟨rfl, _⟩ : b = d ∧ script = more := by simpa using heq
      exact Or.inl hb
    · -- The comment the blanks stand before is not kept: no line comment is.
      obtain ⟨c, rest, rfl, hc⟩ := nextClass_eq_some hn (by simp)
      obtain ⟨more, rfl | rfl⟩ := EditScript.exists_cons hs.added_eq hs.before_eq
      · have hmem : c ∈ ys := by
          rw [← hs.after_eq]
          simp
        exact absurd hc (h.no_lineComment hends.2 c hmem)
      · exact ⟨c, more, rfl, by simp [Trivium.isRemovable, hc]⟩
  | @comment x n xs ys hx hn h ih =>
    obtain ⟨script, hs⟩ := ih
    obtain ⟨hkept, hdropped⟩ := kind_breakEdit hn
    have hx' := ne_whitespace_of_isComment (isComment_of_classify (Or.inl hx))
    refine ⟨.dropped x :: context.breakEdit n :: script, by simp [hs.before_eq],
      by simp [hs.after_eq], by simp [hs.added_eq], ?_, ?_,
      isChain_cons_of_not_kept (by simp) (isChain_cons_of_not_kept hkept hs.keepsNext),
      fun hends => ?_⟩
    · intro y hy
      rcases List.mem_cons.mp hy with rfl | hy
      · simp [hx]
      · rcases mem_dropped_breakEdit hy with rfl | hy
        · simp [hn]
        · exact hs.dropped_ne y hy
    · intro d more heq
      obtain ⟨rfl, _⟩ : x = d ∧ _ := by simpa using heq
      exact Or.inr hx
    · exact EditScript.blanksGoWithComments_cons (by simpa using hx')
        (EditScript.blanksGoWithComments_cons hdropped (hs.blanks hends.2.2))
  | @last x hx _ =>
    have hx' := ne_whitespace_of_isComment (isComment_of_classify (Or.inl hx))
    refine ⟨[.dropped x], rfl, rfl, rfl, ?_, ?_, .singleton _,
      fun _ => EditScript.blanksGoWithComments_cons (by simpa using hx') trivial⟩
    · simp [hx]
    · intro d more heq
      obtain ⟨rfl, _⟩ : x = d ∧ _ := by simpa using heq
      exact Or.inr hx

/-! ## The script of the block rule -/

theorem standsFor_replacementBreak {stripDocs : Bool} {x n : Trivium}
    (hx : x.classify stripDocs = .blockComment) (hn : replacementBreak x.text = some n) :
    StandsFor stripDocs n x := by
  refine ⟨hx, ?_, kind_replacementBreak hn, ?_⟩
  · unfold replacementBreak at hn
    split at hn
    · next hr _ => exact Or.inl (by simpa using hr)
    · next hr _ => exact Or.inl (by simpa using hr)
    · next _ hf => exact Or.inr (by simpa using hf)
    · simp at hn
  · unfold replacementBreak at hn
    split at hn <;> simp at hn <;> simp [← hn]

namespace EditScript.Strips

variable {stripDocs : Bool} {xs ys : Trivia} {script : EditScript}

theorem nil : Strips stripDocs [] [] [] :=
  ⟨rfl, rfl, by simp, [], .slnil, .nil⟩

theorem kept (h : Strips stripDocs xs ys script) (x : Trivium) :
    Strips stripDocs (x :: xs) (x :: ys) (.kept x :: script) :=
  ⟨by simp [h.before_eq], by simp [h.after_eq], h.dropped_ne, h.added_for⟩

theorem dropped (h : Strips stripDocs xs ys script) {x : Trivium}
    (hx : x.classify stripDocs ≠ .other) : Strips stripDocs (x :: xs) ys (.dropped x :: script) := by
  obtain ⟨comments, hsub, hadded⟩ := h.added_for
  refine ⟨by simp [h.before_eq], h.after_eq, ?_, comments, hsub.cons x, hadded⟩
  intro y hy
  rcases List.mem_cons.mp hy with rfl | hy
  · exact hx
  · exact h.dropped_ne y hy

/-- A comment is dropped, and a line break is put in its place. -/
theorem replaced (h : Strips stripDocs xs ys script) {x n : Trivium} (hn : StandsFor stripDocs n x)
    (blank : Option Trivium) :
    Strips stripDocs (blank.toList ++ x :: xs) (n :: blank.toList ++ ys)
      (.added n :: blank.toList.map .kept ++ .dropped x :: script) := by
  obtain ⟨comments, hsub, hadded⟩ := h.added_for
  have hdropped : ∀ y ∈ x :: script.dropped, y.classify stripDocs ≠ .other := by
    intro y hy
    rcases List.mem_cons.mp hy with rfl | hy
    · simp [hn.isBlock]
    · exact h.dropped_ne y hy
  cases blank with
  | none =>
    exact ⟨by simp [h.before_eq], by simp [h.after_eq], hdropped, x :: comments, hsub.cons_cons x,
      .cons hn hadded⟩
  | some b =>
    exact ⟨by simp [h.before_eq], by simp [h.after_eq], hdropped, x :: comments, hsub.cons_cons x,
      .cons hn hadded⟩

end EditScript.Strips

/-- What the block rule does to a span. -/
structure BlockScript (context : SpanContext) (xs ys : Trivia) (script : EditScript) : Prop
    extends EditScript.Strips context.stripDocs xs ys script where
  blanks : script.BlanksGoWithComments context.stripDocs

namespace BlockScript

variable {xs ys : Trivia} {script : EditScript}

theorem kept (h : BlockScript context xs ys script) (x : Trivium) :
    BlockScript context (x :: xs) (x :: ys) (.kept x :: script) :=
  ⟨h.toStrips.kept x, EditScript.blanksGoWithComments_cons (by simp) h.blanks⟩

/-- A comment is dropped with the blanks right before it. -/
theorem dropped (h : BlockScript context xs ys script) {blank : Option Trivium} {x : Trivium}
    (hb : ∀ b ∈ blank, b.classify context.stripDocs = .inlineWhitespace)
    (hx : x.classify context.stripDocs = .blockComment) :
    BlockScript context (blank.toList ++ x :: xs) ys
      (blank.toList.map .dropped ++ .dropped x :: script) := by
  have hcomment := ne_whitespace_of_isComment (isComment_of_classify (Or.inr hx))
  have hscript := EditScript.blanksGoWithComments_cons (e := .dropped x) (by simpa using hcomment)
    h.blanks
  cases blank with
  | none => exact ⟨h.toStrips.dropped (by simp [hx]), hscript⟩
  | some b =>
    refine ⟨(h.toStrips.dropped (by simp [hx])).dropped (by simp [hb b rfl]), ?_, hscript⟩
    exact fun _ _ _ => ⟨x, script, rfl, by simp [Trivium.isRemovable, hx]⟩

/-- The line break after a comment goes or stays. -/
theorem breakEdit (h : BlockScript context xs ys script) {n : Trivium}
    (hn : n.classify context.stripDocs = .lineBreak) :
    BlockScript context (n :: xs) (context.breakAfter n ++ ys) (context.breakEdit n :: script) := by
  refine ⟨?_, EditScript.blanksGoWithComments_cons (kind_breakEdit hn).2 h.blanks⟩
  unfold SpanContext.breakEdit SpanContext.breakAfter
  split
  · exact h.toStrips.dropped (by simp [hn])
  · exact h.toStrips.kept n

/-- A comment is dropped and the blanks before it stay, after the line break in its place if it has
one. -/
theorem replaced (h : BlockScript context xs ys script) {blank : Option Trivium} {x : Trivium}
    (hx : x.classify context.stripDocs = .blockComment) :
    BlockScript context (blank.toList ++ x :: xs)
      ((replacementBreak x.text).toList ++ blank.toList ++ ys)
      ((replacementBreak x.text).toList.map .added ++ blank.toList.map .kept ++
        .dropped x :: script) := by
  have hcomment := ne_whitespace_of_isComment (isComment_of_classify (Or.inr hx))
  have hscript := EditScript.blanksGoWithComments_cons (e := .dropped x) (by simpa using hcomment)
    h.blanks
  have hblank : EditScript.BlanksGoWithComments context.stripDocs
      (blank.toList.map .kept ++ .dropped x :: script) := by
    cases blank with
    | none => exact hscript
    | some b => exact EditScript.blanksGoWithComments_cons (by simp) hscript
  cases hbreak : replacementBreak x.text with
  | some n =>
    exact ⟨h.toStrips.replaced (standsFor_replacementBreak hx hbreak) blank,
      EditScript.blanksGoWithComments_cons (by simp) hblank⟩
  | none =>
    have hdropped := h.toStrips.dropped (x := x) (by simp [hx])
    refine ⟨?_, hblank⟩
    cases blank with
    | none => exact hdropped
    | some b => exact hdropped.kept b

end BlockScript

/-- **The block rule has a script.** -/
theorem BlockStripped.exists_script {xs ys : Trivia} (h : BlockStripped context xs ys) :
    ∃ script, BlockScript context xs ys script := by
  have hnil : BlockScript context [] [] [] := ⟨.nil, trivial⟩
  induction h with
  | nil => exact ⟨[], hnil⟩
  | keep _ _ _ ih =>
    obtain ⟨script, hs⟩ := ih
    exact ⟨_, hs.kept _⟩
  | comment hb hx hn _ ih =>
    obtain ⟨script, hs⟩ := ih
    exact ⟨_, (hs.breakEdit hn).dropped hb hx⟩
  | last hb hx => exact ⟨_, hnil.dropped hb hx⟩
  | inside hb hx _ _ ih =>
    obtain ⟨script, hs⟩ := ih
    exact ⟨_, hs.replaced hx⟩

/-! ## The script of both rules -/

/-- **A stripped span comes from the span by a script**, in which blanks go with comments if the span
is one the lexer can give. -/
theorem exists_script_stripSpan (context : SpanContext) (xs : Trivia) :
    ∃ script : EditScript, script.Strips context.stripDocs xs (stripSpan context xs) ∧
      (LinesEnd context.atEnd xs → xs.IsChain BlanksApart →
        script.BlanksGoWithComments context.stripDocs) := by
  obtain ⟨middle, hline, hblock⟩ := stripSpan_steps context xs
  obtain ⟨first, hfirst⟩ := hline.exists_script
  obtain ⟨second, hsecond⟩ := hblock.exists_script
  obtain ⟨script, hscript⟩ := EditScript.exists_composed hfirst.added_eq
    (hsecond.before_eq.trans hfirst.after_eq.symm)
  obtain ⟨comments, hsub, hadded⟩ := hsecond.added_for
  refine ⟨script, ⟨?_, ?_, ?_, comments, hsub.trans hscript.dropped_sublist, ?_⟩,
    fun hends hapart => ?_⟩
  · rw [hscript.before_eq, hfirst.before_eq]
  · rw [hscript.after_eq, hsecond.after_eq]
  · intro x hx
    rcases hscript.mem_dropped hx with hx | hx
    · exact hfirst.dropped_ne x hx
    · exact hsecond.dropped_ne x hx
  · rw [hscript.added_eq]
    exact hadded
  · refine hscript.blanksGoWithComments (hfirst.blanks hends) hsecond.blanks hfirst.keepsNext ?_
    rw [hfirst.before_eq]
    exact hapart

/-! ## Blanks in a text -/

theorem head?_readTrivia (leading : Bool) (state : LexState) (t : Text) :
    (readTrivia leading state t).trivia.head? =
      (readTrivium leading state t).map (·.item.item) := by
  cases h : readTrivium leading state t with
  | none =>
    rw [readTrivia_of_none h]
    rfl
  | some r =>
    obtain ⟨more, heq⟩ := trivia_of_reading (reading_of_readTrivium h)
    rw [heq]
    rfl

/-- A run of blanks is taken whole, so the next piece is something else. -/
theorem Reading.blanksApart {leading : Bool} {state state' : LexState} {t : Text}
    {r r' : ReadTrivium} (h : Reading leading state t r) (h' : Reading leading state' r.rest r') :
    BlanksApart r.item.item r'.item.item := by
  intro hk
  cases h with
  | disabled | newline | directive => simp [ReadTrivium.plain, ReadTrivium.directive] at hk
  | line => exact absurd hk (lineCommentKind_ne rfl)
  | block => exact absurd hk (blockCommentKind_ne rfl)
  | @blank c rest hskip hb hc =>
    have hnot := List.head?_dropWhile_not (fun d => isBlank d && !isLineBreak d) (c :: rest)
    generalize hrest : (ReadTrivium.plain .whitespace
      (Reader.run (fun d => isBlank d && !isLineBreak d) (c :: rest)) state).rest = u at h'
    rw [show (c :: rest).dropWhile (fun d => isBlank d && !isLineBreak d) = u from hrest] at hnot
    cases h' with
    | disabled | newline | directive => simp [ReadTrivium.plain, ReadTrivium.directive]
    | blank _ hb' hc' => simp [hb', hc'] at hnot
    | line => exact lineCommentKind_ne rfl
    | block => exact blockCommentKind_ne rfl

/-- **In the trivia of a text no two runs of blanks stand side by side.** -/
theorem isChain_blanksApart (leading : Bool) (state : LexState) (t : Text) :
    (readTrivia leading state t).trivia.IsChain BlanksApart := by
  fun_induction readTrivia leading state t with
  | case1 => exact .nil
  | case2 => exact .singleton _
  | case3 state t r h hk more ih =>
    refine List.isChain_cons.mpr ⟨fun y hy => ?_, ih⟩
    have hhead : more.trivia.head? = (readTrivium leading r.state r.rest).map (·.item.item) :=
      head?_readTrivia leading r.state r.rest
    have hy' : y ∈ more.trivia.head? := hy
    rw [hhead] at hy'
    obtain ⟨r', hr', rfl⟩ := Option.map_eq_some_iff.mp hy'
    exact (reading_of_readTrivium h).blanksApart (reading_of_readTrivium hr')

/-! ## Files -/

/-- The trivia around the tokens of terminals, side by side. -/
def spansOf (terminals : List Terminal) : List Trivia :=
  terminals.flatMap fun a => [a.leading, a.trailing]

/-- The trivia around the tokens of a file. The first span is the header. -/
def SourceFile.spans (file : SourceFile) : List Trivia :=
  spansOf file.terminals

@[simp] theorem spansOf_cons (a : Terminal) (rest : List Terminal) :
    spansOf (a :: rest) = a.leading :: a.trailing :: spansOf rest := rfl

theorem isChain_blanksApart_lexFrom (state : LexState) (t : Text) :
    ∀ xs ∈ spansOf ((lexFrom state t).map LexedTerminal.terminal), xs.IsChain BlanksApart := by
  fun_induction lexFrom state t with
  | case1 state t leading h =>
    intro xs hxs
    rcases List.mem_cons.mp hxs with rfl | hxs
    · exact isChain_blanksApart true state t
    · obtain rfl : xs = [] := List.mem_singleton.mp hxs
      exact .nil
  | case2 state t leading token h trailing ih =>
    intro xs hxs
    rcases List.mem_cons.mp hxs with rfl | hxs
    · exact isChain_blanksApart true state t
    · rcases List.mem_cons.mp hxs with rfl | hxs
      · exact isChain_blanksApart false _ _
      · exact ih xs hxs

/-- Whether a trivium is none of the rules' business. -/
def Trivium.isOther (stripDocs : Bool) (x : Trivium) : Bool :=
  x.classify stripDocs == .other

/-- A span and its stripped form: everything else stays in order, and a script tells what became of each
trivium. In a text, the blanks that go stood before comments that go. -/
structure SpanStripped (stripDocs : Bool) (inText : Prop) (xs ys : Trivia) : Prop where
  others : ys.filter (Trivium.isOther stripDocs) = xs.filter (Trivium.isOther stripDocs)
  script : ∃ script : EditScript, script.Strips stripDocs xs ys ∧
    (inText → script.BlanksGoWithComments stripDocs)

theorem SpanStripped.refl (stripDocs : Bool) (inText : Prop) (xs : Trivia) :
    SpanStripped stripDocs inText xs xs := by
  refine ⟨rfl, xs.map .kept, ?_, fun _ => ?_⟩
  · induction xs with
    | nil => exact .nil
    | cons x rest ih => exact ih.kept x
  · induction xs with
    | nil => exact trivial
    | cons x rest ih => exact EditScript.blanksGoWithComments_cons (by simp) ih

theorem spanStripped_stripSpan (context : SpanContext) {inText : Prop} {xs : Trivia}
    (h : inText → LinesEnd context.atEnd xs ∧ xs.IsChain BlanksApart) :
    SpanStripped context.stripDocs inText xs (stripSpan context xs) := by
  obtain ⟨script, hstrips, hblanks⟩ := exists_script_stripSpan context xs
  refine ⟨filter_stripSpan (fun x hx => ?_) xs, script, hstrips, fun ht => ?_⟩
  · simpa [Trivium.isOther] using hx
  · exact hblanks (h ht).1 (h ht).2

theorem forall₂_spans_stripTerminals (stripDocs keepFirst : Bool) {inText : Prop}
    {terminals : List Terminal}
    (h : inText → SpansEnd terminals ∧ ∀ xs ∈ spansOf terminals, xs.IsChain BlanksApart) :
    List.Forall₂ (SpanStripped stripDocs inText) (spansOf terminals)
      (spansOf (stripTerminals stripDocs keepFirst terminals)) := by
  induction terminals generalizing keepFirst with
  | nil => exact .nil
  | cons a rest ih =>
    refine .cons ?_ (.cons ?_ (ih false fun ht => ?_))
    · cases keepFirst with
      | true => exact .refl ..
      | false =>
        refine spanStripped_stripSpan (.leading a.isEnd stripDocs) fun ht => ?_
        exact ⟨(h ht).1.1, (h ht).2 a.leading (by simp)⟩
    · refine spanStripped_stripSpan (.trailing _ stripDocs) fun ht => ?_
      exact ⟨(h ht).1.2.1, (h ht).2 a.trailing (by simp)⟩
    · exact ⟨(h ht).1.2.2, fun xs hxs => (h ht).2 xs (by simp [hxs])⟩

theorem token_stripTerminals (stripDocs keepFirst : Bool) (terminals : List Terminal) :
    (stripTerminals stripDocs keepFirst terminals).map Terminal.token =
      terminals.map Terminal.token := by
  induction terminals generalizing keepFirst with
  | nil => rfl
  | cons a rest ih =>
    rw [stripTerminals, List.map_cons, ih]
    rfl

/-- The token of a terminal and what stands around it that is none of the rules' business. -/
def Terminal.lastingText (stripDocs : Bool) (a : Terminal) : Text :=
  Trivia.text (a.leading.filter (Trivium.isOther stripDocs)) ++ a.text ++
    Trivia.text (a.trailing.filter (Trivium.isOther stripDocs))

/-- The text of a file without comments, blanks and line breaks. -/
def SourceFile.lastingText (stripDocs : Bool) (file : SourceFile) : Text :=
  file.terminals.flatMap (Terminal.lastingText stripDocs)

theorem lastingText_eq_of_spans {stripDocs : Bool} {inText : Prop} {as bs : List Terminal}
    (htokens : bs.map Terminal.token = as.map Terminal.token)
    (hspans : List.Forall₂ (SpanStripped stripDocs inText) (spansOf as) (spansOf bs)) :
    bs.flatMap (Terminal.lastingText stripDocs) = as.flatMap (Terminal.lastingText stripDocs) := by
  induction as generalizing bs with
  | nil =>
    obtain rfl : bs = [] := by simpa using htokens
    rfl
  | cons a as ih =>
    cases bs with
    | nil => simp at htokens
    | cons b bs =>
      obtain ⟨htoken, htokens⟩ := List.cons.inj htokens
      obtain ⟨hleading, hrest⟩ := List.forall₂_cons.mp hspans
      obtain ⟨htrailing, hrest⟩ := List.forall₂_cons.mp hrest
      have htext : b.text = a.text := congrArg Prod.snd htoken
      rw [List.flatMap_cons, List.flatMap_cons, ih htokens hrest, Terminal.lastingText,
        Terminal.lastingText, hleading.others, htrailing.others, htext]

/-- **Stripping touches nothing but comments and what is next to them.** For every file and all
settings:

* the terminals have the same kinds and texts as before;
* a header that is kept is the same, and the other spans do not depend on whether it is kept;
* in every span, what is neither comment nor blank nor line break is as before, and a script tells which
  trivia were kept and dropped and where a line break stands in for a dropped comment; if the file was
  read from a text, dropped blanks stood right before a dropped comment;
* so the tokens and everything else, put together, are the same text. -/
theorem strip_touches_only_comments (file : SourceFile) (settings : Settings) :
    (file.strip settings).terminals.map (fun a => (a.kind, a.text)) =
      file.terminals.map (fun a => (a.kind, a.text)) ∧
    (settings.keepHeader = true → (file.strip settings).spans.head? = file.spans.head?) ∧
    (∀ keepHeader, (file.strip { settings with keepHeader }).spans.tail =
      (file.strip settings).spans.tail) ∧
    List.Forall₂ (SpanStripped settings.stripDocs (∃ t, file = .ofText t)) file.spans
      (file.strip settings).spans ∧
    (file.strip settings).lastingText settings.stripDocs =
      file.lastingText settings.stripDocs := by
  have htokens : (file.strip settings).terminals.map Terminal.token =
      file.terminals.map Terminal.token := token_stripTerminals _ _ _
  have hspans : List.Forall₂ (SpanStripped settings.stripDocs (∃ t, file = .ofText t)) file.spans
      (file.strip settings).spans := by
    refine forall₂_spans_stripTerminals _ _ ?_
    rintro ⟨t, rfl⟩
    exact ⟨spansEnd_lexFrom .initial t, isChain_blanksApart_lexFrom .initial t⟩
  refine ⟨htokens, ?_, ?_, hspans, lastingText_eq_of_spans htokens hspans⟩
  · intro hkeep
    simp only [SourceFile.spans, SourceFile.strip, hkeep]
    cases file.terminals with
    | nil => rfl
    | cons a rest => rfl
  · intro keepHeader
    simp only [SourceFile.spans, SourceFile.strip]
    cases file.terminals with
    | nil => rfl
    | cons a rest => rfl

end Uncomment
