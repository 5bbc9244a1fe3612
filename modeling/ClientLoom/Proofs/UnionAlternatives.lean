import ClientLoom.UnionText
import Mathlib.Data.List.DropRight

/-!
# Alternatives and the optional law

A scan that is back outside quotes and brackets goes on as one from the start, whatever it has met.
So texts that are self-contained can be joined with bars and split again, and the parts of any text
are of this kind, the last one perhaps left open.  What the optional law makes of a payload is
therefore left as it is by the law.
-/

namespace ClientLoom

/-! ## Blanks at the ends of a text -/

namespace Text

theorem trim_eq_rdropWhile (cs : List Char) :
    trim cs = (cs.dropWhile isBlank).rdropWhile isBlank :=
  rfl

theorem trim_cons_blank {c : Char} (h : isBlank c = true) (cs : List Char) :
    trim (c :: cs) = trim cs := by
  rw [trim_eq_rdropWhile, List.dropWhile_cons_of_pos h, trim_eq_rdropWhile]

theorem trim_append_blank {c : Char} (h : isBlank c = true) (cs : List Char) :
    trim (cs ++ [c]) = trim cs := by
  rw [trim_eq_rdropWhile, trim_eq_rdropWhile, List.dropWhile_append]
  split
  · rename_i hblank
    rw [List.isEmpty_iff.1 hblank, List.dropWhile_cons_of_pos h]
    rfl
  · exact List.rdropWhile_concat_pos isBlank _ c h

@[simp] theorem trim_trim (cs : List Char) : trim (trim cs) = trim cs := by
  have hfront : (trim cs).dropWhile isBlank = trim cs := by
    obtain ⟨back, hback⟩ := List.rdropWhile_prefix isBlank (cs.dropWhile isBlank)
    rw [← trim_eq_rdropWhile] at hback
    cases hcs : trim cs with
    | nil => rfl
    | cons c rest =>
        -- The first character is that of a text whose blanks in front are gone.
        have hhead := List.head?_dropWhile_not isBlank cs
        rw [← hback, hcs, List.cons_append] at hhead
        have hc : isBlank c = false := hhead
        exact List.dropWhile_cons_of_neg (by simp [hc])
  rw [trim_eq_rdropWhile, hfront, trim_eq_rdropWhile, List.rdropWhile_idempotent]

/-- What is dropped at both ends are blanks. -/
theorem exists_blanks (cs : List Char) :
    ∃ front back, cs = front ++ (trim cs ++ back) ∧ (∀ c ∈ front, isBlank c = true) ∧
      ∀ c ∈ back, isBlank c = true := by
  refine ⟨cs.takeWhile isBlank, (cs.dropWhile isBlank).rtakeWhile isBlank, ?_,
    fun c hc => List.mem_takeWhile_imp hc, fun c hc => List.mem_rtakeWhile_imp hc⟩
  rw [trim_eq_rdropWhile, List.rdropWhile_append_rtakeWhile, List.takeWhile_append_dropWhile]

end Text

open Text (isBlank trim)

/-! ## Scans of a text -/

namespace UnionScan

variable {scan other : UnionScan} {c : Char} {text : List Char}

/-- The scan after a text. -/
def after (scan : UnionScan) (text : List Char) : UnionScan :=
  text.foldl step scan

@[simp] theorem after_append (scan : UnionScan) (front back : List Char) :
    scan.after (front ++ back) = (scan.after front).after back :=
  List.foldl_append

/-- The scan stands outside quotes and brackets. -/
structure AtTop (scan : UnionScan) : Prop where
  quote : scan.quote = none
  depth : scan.depth = 0

/-- No bar of the text stands outside quotes and brackets. -/
def NoBar (scan : UnionScan) (text : List Char) : Prop :=
  ∀ front back, text = front ++ '|' :: back → ¬ (scan.after front).AtTop

@[simp] theorem isBar_iff : scan.isBar c = true ↔ c = '|' ∧ scan.AtTop := by
  constructor
  · intro h
    simp only [isBar, Bool.and_eq_true, beq_iff_eq, Option.isNone_iff_eq_none] at h
    exact ⟨h.1.1, h.1.2, h.2⟩
  · rintro ⟨rfl, hquote, hdepth⟩
    simp [isBar, hquote, hdepth]

@[simp] theorem noBar_cons :
    NoBar scan (c :: text) ↔ scan.isBar c = false ∧ NoBar (scan.step c) text := by
  constructor
  · intro h
    constructor
    · by_contra hbar
      obtain ⟨rfl, htop⟩ := isBar_iff.1 (by simpa using hbar)
      exact h [] text rfl htop
    · intro front back htext
      exact h (c :: front) back (congrArg (c :: ·) htext)
  · rintro ⟨hbar, hrest⟩ front back htext htop
    cases front with
    | nil =>
        obtain ⟨rfl, rfl⟩ := List.cons.inj htext
        have htrue : scan.isBar '|' = true := isBar_iff.2 ⟨rfl, htop⟩
        rw [hbar] at htrue
        cases htrue
    | cons d front =>
        obtain ⟨rfl, rfl⟩ := List.cons.inj htext
        exact hrest front back rfl htop

@[simp] theorem noBar_append {front back : List Char} :
    NoBar scan (front ++ back) ↔ NoBar scan front ∧ NoBar (scan.after front) back := by
  induction front generalizing scan with
  | nil =>
      have hnil : NoBar scan [] := fun front back h => by simp at h
      exact ⟨fun h => ⟨hnil, h⟩, And.right⟩
  | cons c front ih =>
      rw [List.cons_append, noBar_cons, noBar_cons, ih, and_assoc]
      rfl

/-- A text without bars is one part. -/
theorem split_of_noBar (h : NoBar scan text) : scan.split text = (text, []) := by
  induction text generalizing scan with
  | nil => rfl
  | cons c text ih =>
      obtain ⟨hbar, hrest⟩ := noBar_cons.1 h
      rw [split, ih hrest, hbar]
      rfl

/-- A text is split at its first bar. -/
theorem split_at_bar {front back : List Char} (h : NoBar scan front)
    (htop : (scan.after front).AtTop) :
    scan.split (front ++ '|' :: back) =
      (front, (((scan.after front).step '|').split back).1 ::
        (((scan.after front).step '|').split back).2) := by
  induction front generalizing scan with
  | nil =>
      have hbar : scan.isBar '|' = true := isBar_iff.2 ⟨rfl, htop⟩
      rw [List.nil_append, split, hbar]
      rfl
  | cons c front ih =>
      obtain ⟨hbar, hrest⟩ := noBar_cons.1 h
      rw [List.cons_append, split, ih hrest htop, hbar]
      rfl

/-- A text has no bar, or there is a first one. -/
theorem noBar_or_first (scan : UnionScan) (text : List Char) :
    NoBar scan text ∨ ∃ front back, text = front ++ '|' :: back ∧ NoBar scan front ∧
      (scan.after front).AtTop := by
  induction text generalizing scan with
  | nil => exact .inl fun front back h => by simp at h
  | cons c text ih =>
      cases hbar : scan.isBar c with
      | true =>
          obtain ⟨rfl, htop⟩ := isBar_iff.1 hbar
          exact .inr ⟨[], text, rfl, fun front back h => by simp at h, htop⟩
      | false =>
          rcases ih (scan.step c) with hnone | ⟨front, back, rfl, hfront, htop⟩
          · exact .inl (noBar_cons.2 ⟨hbar, hnone⟩)
          · exact .inr ⟨c :: front, back, rfl, noBar_cons.2 ⟨hbar, hfront⟩, htop⟩

/-! ## What a scan remembers -/

/-- Only inside quotes a character is escaped, and only quotes open quotes. -/
structure Sound (scan : UnionScan) : Prop where
  escaped : scan.quote = none → scan.escaped = false
  quoted : ∀ q, scan.quote = some q → isQuote q = true

theorem sound_start : Sound {} :=
  ⟨fun _ => rfl, nofun⟩

theorem Sound.step (h : Sound scan) (c : Char) : Sound (scan.step c) := by
  obtain ⟨depth, quote, escaped, previous⟩ := scan
  cases quote with
  | none =>
      have hescaped : escaped = false := h.escaped rfl
      simp only [UnionScan.step]
      split_ifs with hquote
      · refine ⟨nofun, fun q hq => ?_⟩
        rw [← Option.some.inj hq]
        exact hquote
      all_goals exact ⟨fun _ => hescaped, nofun⟩
  | some q =>
      have hquoted := h.quoted
      simp only [UnionScan.step]
      split_ifs with hescaped
      · exact ⟨nofun, hquoted⟩
      · exact ⟨nofun, hquoted⟩
      · exact ⟨fun _ => Bool.eq_false_iff.2 hescaped, nofun⟩
      · exact ⟨nofun, hquoted⟩

theorem Sound.after (h : Sound scan) (text : List Char) : Sound (scan.after text) := by
  induction text generalizing scan with
  | nil => exact h
  | cons c text ih => exact ih (h.step c)

/-- The two scans tell no text apart: of the characters before, only an `=` counts. -/
structure Alike (scan other : UnionScan) : Prop where
  depth : scan.depth = other.depth
  quote : scan.quote = other.quote
  escaped : scan.escaped = other.escaped
  arrow : scan.previous = some '=' ↔ other.previous = some '='

theorem Alike.refl (scan : UnionScan) : Alike scan scan :=
  ⟨rfl, rfl, rfl, Iff.rfl⟩

theorem Alike.trans {third : UnionScan} (h : Alike scan other) (h' : Alike other third) :
    Alike scan third :=
  ⟨h.depth.trans h'.depth, h.quote.trans h'.quote, h.escaped.trans h'.escaped,
    h.arrow.trans h'.arrow⟩

theorem Alike.step_eq (h : Alike scan other) (c : Char) : scan.step c = other.step c := by
  obtain ⟨depth, quote, escaped, previous⟩ := scan
  obtain ⟨depth', quote', escaped', previous'⟩ := other
  obtain ⟨rfl, rfl, rfl, harrow⟩ := h
  simp only at harrow
  cases quote with
  | none => simp only [step, harrow]
  | some q => simp only [step]

theorem Alike.atTop_iff (h : Alike scan other) : scan.AtTop ↔ other.AtTop := by
  constructor
  · exact fun htop => ⟨h.quote ▸ htop.quote, h.depth ▸ htop.depth⟩
  · exact fun htop => ⟨h.quote ▸ htop.quote, h.depth ▸ htop.depth⟩

theorem Alike.after (h : Alike scan other) (text : List Char) :
    Alike (scan.after text) (other.after text) := by
  cases text with
  | nil => exact h
  | cons c text =>
      have hstep : scan.after (c :: text) = other.after (c :: text) :=
        congrArg (UnionScan.after · text) (h.step_eq c)
      rw [hstep]
      exact .refl _

theorem Alike.noBar_iff (h : Alike scan other) : NoBar scan text ↔ NoBar other text := by
  constructor
  · exact fun hbar front back htext htop => hbar front back htext ((h.after front).atTop_iff.2 htop)
  · exact fun hbar front back htext htop => hbar front back htext ((h.after front).atTop_iff.1 htop)

theorem Alike.split_eq (h : Alike scan other) (text : List Char) :
    scan.split text = other.split text := by
  cases text with
  | nil => rfl
  | cons c text =>
      have hbar : scan.isBar c = other.isBar c := by
        rw [isBar, isBar, h.quote, h.depth]
      rw [split, split, h.step_eq c, hbar]

/-! ## Blanks and bars -/

/-- Quotes and brackets. -/
def marks : List Char :=
  ['\'', '"', '\x60', '<', '(', '{', '[', '>', ')', '}', ']']

theorem not_mem_marks_of_isBlank (h : isBlank c = true) : c ∉ marks := by
  have hmarks : marks.all (fun mark => !isBlank mark) = true := by decide
  intro hc
  have hmark := List.all_eq_true.1 hmarks c hc
  rw [h] at hmark
  cases hmark

theorem mem_marks_of_isQuote (h : isQuote c = true) : c ∈ marks := by
  simp only [isQuote, Bool.or_eq_true, beq_iff_eq] at h
  rcases h with (rfl | rfl) | rfl
  all_goals simp [marks]

theorem not_atTop_of_quote {q : Char} (h : scan.quote = some q) : ¬ scan.AtTop := by
  intro htop
  rw [htop.quote] at h
  cases h

/-- Outside quotes only quotes and brackets count. -/
theorem step_of_not_mem_marks (hquote : scan.quote = none) (hc : c ∉ marks) :
    scan.step c = { scan with previous := some c } := by
  simp only [marks, List.mem_cons, List.not_mem_nil, or_false, not_or] at hc
  simp [step, hquote, isQuote, isOpening, isClosing, hc]

/-- Outside quotes and brackets, a scan behind a bar or a blank is as good as one from the start. -/
theorem alike_start (h : Sound scan) (htop : scan.AtTop) (hc : c ∉ marks) (hne : c ≠ '=') :
    Alike (scan.step c) {} := by
  rw [step_of_not_mem_marks htop.quote hc]
  exact ⟨htop.depth, htop.quote, h.escaped htop.quote, by simp [hne]⟩

theorem alike_start_blanks (h : ∀ c ∈ text, isBlank c = true) : Alike (after {} text) {} := by
  induction text with
  | nil => exact .refl _
  | cons c text ih =>
      obtain ⟨hc, htext⟩ := List.forall_mem_cons.1 h
      have hne : c ≠ '=' := by
        rintro rfl
        cases hc
      have hstep : Alike (step {} c) {} :=
        alike_start sound_start ⟨rfl, rfl⟩ (not_mem_marks_of_isBlank hc) hne
      exact (hstep.after text).trans (ih htext)

/-- A blank neither opens nor closes. -/
theorem Sound.atTop_step_iff (h : Sound scan) (hc : isBlank c = true) :
    (scan.step c).AtTop ↔ scan.AtTop := by
  have hmark := not_mem_marks_of_isBlank hc
  cases hquote : scan.quote with
  | none =>
      rw [step_of_not_mem_marks hquote hmark]
      constructor
      · exact fun htop => ⟨htop.quote, htop.depth⟩
      · exact fun htop => ⟨htop.quote, htop.depth⟩
  | some q =>
      -- Inside quotes both sides are false: a blank is not the quote that closes them.
      have hne : c ≠ q := by
        rintro rfl
        exact hmark (mem_marks_of_isQuote (h.quoted c hquote))
      have hstep : (scan.step c).quote = some q := by
        unfold UnionScan.step
        rw [hquote]
        dsimp only
        split_ifs
        all_goals rfl
      exact iff_of_false (not_atTop_of_quote hstep) (not_atTop_of_quote hquote)

theorem Sound.atTop_after_iff (h : Sound scan) (hblank : ∀ c ∈ text, isBlank c = true) :
    (scan.after text).AtTop ↔ scan.AtTop := by
  induction text generalizing scan with
  | nil => exact Iff.rfl
  | cons c text ih =>
      obtain ⟨hc, htext⟩ := List.forall_mem_cons.1 hblank
      exact (ih (h.step c) htext).trans (h.atTop_step_iff hc)

end UnionScan

/-! ## Texts that can be joined with bars -/

open UnionScan (NoBar AtTop)

/-- A scan of the text alone ends outside quotes and brackets and meets no bar there. -/
structure SelfContained (text : List Char) : Prop where
  atTop : (UnionScan.after {} text).AtTop
  noBar : NoBar {} text

theorem noBar_iff_split {text : List Char} : NoBar {} text ↔ (UnionScan.split {} text).2 = [] := by
  constructor
  · intro h
    rw [UnionScan.split_of_noBar h]
  · intro h
    rcases UnionScan.noBar_or_first {} text with hnone | ⟨front, back, rfl, hfront, htop⟩
    · exact hnone
    · rw [UnionScan.split_at_bar hfront htop] at h
      cases h

theorem selfContained_iff {text : List Char} :
    SelfContained text ↔ ((UnionScan.after {} text).quote = none ∧
      (UnionScan.after {} text).depth = 0) ∧ (UnionScan.split {} text).2 = [] := by
  rw [← noBar_iff_split]
  constructor
  · exact fun h => ⟨⟨h.atTop.quote, h.atTop.depth⟩, h.noBar⟩
  · exact fun h => ⟨⟨h.1.1, h.1.2⟩, h.2⟩

instance : DecidablePred SelfContained := fun _ =>
  decidable_of_iff _ selfContained_iff.symm

theorem noBar_trim {text : List Char} (h : NoBar {} text) : NoBar {} (trim text) := by
  obtain ⟨front, back, htext, hfront, -⟩ := Text.exists_blanks text
  rw [htext, UnionScan.noBar_append, UnionScan.noBar_append] at h
  exact (UnionScan.alike_start_blanks hfront).noBar_iff.1 h.2.1

theorem SelfContained.trim {text : List Char} (h : SelfContained text) :
    SelfContained (trim text) := by
  refine ⟨?_, noBar_trim h.noBar⟩
  obtain ⟨front, back, htext, hfront, hback⟩ := Text.exists_blanks text
  have htop := h.atTop
  rw [htext, UnionScan.after_append, UnionScan.after_append] at htop
  -- The blanks behind do not close anything, and those in front leave the scan at its start.
  have hsound := (UnionScan.sound_start.after front).after (Text.trim text)
  have hinner := (hsound.atTop_after_iff hback).1 htop
  exact ((UnionScan.alike_start_blanks hfront).after (Text.trim text)).atTop_iff.1 hinner

theorem SelfContained.append_blank {text : List Char} {c : Char} (h : SelfContained text)
    (hc : isBlank c = true) : SelfContained (text ++ [c]) := by
  constructor
  · rw [UnionScan.after_append]
    exact ((UnionScan.sound_start.after text).atTop_step_iff hc).2 h.atTop
  · rw [UnionScan.noBar_append, UnionScan.noBar_cons]
    refine ⟨h.noBar, ?_, fun front back hnil => by simp at hnil⟩
    have hne : c ≠ '|' := by
      rintro rfl
      cases hc
    simp [UnionScan.isBar, hne]

theorem alternatives_of_noBar {text : List Char} (h : NoBar {} text) :
    alternatives text = [trim text] := by
  simp only [alternatives, UnionScan.split_of_noBar h, List.map_cons, List.map_nil]

/-- A bar behind a self-contained text ends the first alternative. -/
theorem alternatives_append_bar {front : List Char} (h : SelfContained front) (back : List Char) :
    alternatives (front ++ '|' :: back) = trim front :: alternatives back := by
  have hsound := UnionScan.sound_start.after front
  have hstart := UnionScan.alike_start hsound h.atTop (by decide : '|' ∉ UnionScan.marks) (by decide)
  simp only [alternatives, UnionScan.split_at_bar h.noBar h.atTop, hstart.split_eq back,
    List.map_cons]

theorem alternatives_cons_blank {c : Char} (hc : isBlank c = true) (text : List Char) :
    alternatives (c :: text) = alternatives text := by
  have hne : c ≠ '|' := by
    rintro rfl
    cases hc
  have hbar : UnionScan.isBar {} c = false := by simp [UnionScan.isBar, hne]
  have hstart : UnionScan.Alike (UnionScan.after {} [c]) {} :=
    UnionScan.alike_start_blanks (by simpa using hc)
  have hrest : UnionScan.split (UnionScan.step {} c) text = UnionScan.split {} text :=
    hstart.split_eq text
  simp only [alternatives, UnionScan.split, hbar, hrest, List.map_cons, Bool.false_eq_true,
    if_false, Text.trim_cons_blank hc]

/-- All texts but the last one are self-contained, and the last one has no bar. -/
inductive Separate : List (List Char) → Prop
  | last {text : List Char} (h : NoBar {} text) : Separate [text]
  | cons {text : List Char} {rest : List (List Char)} (h : SelfContained text)
      (hrest : Separate rest) : Separate (text :: rest)

theorem separate_of_forall {parts : List (List Char)} (hne : parts ≠ [])
    (h : ∀ part ∈ parts, SelfContained part) : Separate parts := by
  induction parts with
  | nil => exact absurd rfl hne
  | cons part rest ih =>
      obtain ⟨hpart, hrest⟩ := List.forall_mem_cons.1 h
      by_cases hnil : rest = []
      · rw [hnil]
        exact .last hpart.noBar
      · exact .cons hpart (ih hnil hrest)

theorem Separate.ne_nil {parts : List (List Char)} (h : Separate parts) : parts ≠ [] := by
  rintro rfl
  cases h

/-- Separate texts joined with bars are split into what they were, blanks at the ends apart. -/
theorem Separate.alternatives_intercalate {parts : List (List Char)} (h : Separate parts) :
    alternatives (" | ".toList.intercalate parts) = parts.map trim := by
  induction h with
  | last h =>
      rw [List.intercalate_singleton]
      exact alternatives_of_noBar h
  | @cons text rest h hrest ih =>
      have hblank : isBlank ' ' = true := by decide
      have hjoined : " | ".toList.intercalate (text :: rest) =
          (text ++ [' ']) ++ '|' :: ' ' :: " | ".toList.intercalate rest := by
        rw [List.intercalate_cons_of_ne_nil hrest.ne_nil]
        simp
      rw [hjoined, alternatives_append_bar (h.append_blank hblank), alternatives_cons_blank hblank,
        ih, Text.trim_append_blank hblank, List.map_cons]

/-- The alternatives of a text are separate. -/
theorem separate_alternatives (text : List Char) : Separate (alternatives text) := by
  rcases UnionScan.noBar_or_first {} text with hnone | ⟨front, back, htext, hfront, htop⟩
  · rw [alternatives_of_noBar hnone]
    exact .last (noBar_trim hnone)
  · have hcontained : SelfContained front := ⟨htop, hfront⟩
    have hshorter : back.length < text.length := by
      rw [htext, List.length_append, List.length_cons]
      omega
    rw [htext, alternatives_append_bar hcontained]
    exact .cons hcontained.trim (separate_alternatives back)
termination_by text.length

theorem Separate.filter {parts : List (List Char)} (h : Separate parts) (keep : List Char → Bool)
    (hne : parts.filter keep ≠ []) : Separate (parts.filter keep) := by
  induction h with
  | @last text h =>
      rw [List.filter_cons] at hne ⊢
      split
      · exact .last h
      · rename_i hdropped
        rw [if_neg hdropped] at hne
        exact absurd rfl hne
  | @cons text rest h hrest ih =>
      rw [List.filter_cons] at hne ⊢
      split
      · by_cases hrestNil : rest.filter keep = []
        · rw [hrestNil]
          exact .last h.noBar
        · exact .cons h (ih hrestNil)
      · rename_i hdropped
        rw [if_neg hdropped] at hne
        exact ih hne

/-- Some of the alternatives of a text, joined with bars, are the alternatives of what results. -/
theorem alternatives_rejoined (text : List Char) (keep : List Char → Bool)
    (hne : (alternatives text).filter keep ≠ []) :
    alternatives (" | ".toList.intercalate ((alternatives text).filter keep)) =
      (alternatives text).filter keep := by
  have htrimmed : ∀ part ∈ (alternatives text).filter keep, trim part = part := by
    intro part hpart
    obtain ⟨source, -, rfl⟩ := List.mem_map.1 (List.mem_filter.1 hpart).1
    exact Text.trim_trim source
  rw [((separate_alternatives text).filter keep hne).alternatives_intercalate]
  exact (List.map_congr_left htrimmed).trans (List.map_id _)

/-! ## The optional law -/

/-- The alternatives of a payload other than `undefined`. -/
def definedAlternatives (payload : String) : List String :=
  ((alternatives payload.toList).filter (· ≠ undefinedChars)).map String.ofList

theorem optionalLaw_of_not_mem {payload : String}
    (h : undefinedChars ∉ alternatives payload.toList) : optionalLaw payload = (payload, false) := by
  have hkept : (alternatives payload.toList).filter (· ≠ undefinedChars) =
      alternatives payload.toList := by
    rw [List.filter_eq_self]
    rintro part hpart
    simpa using fun heq : part = undefinedChars => h (heq ▸ hpart)
  simp only [optionalLaw, hkept, if_true]

theorem optionalLaw_of_mem {payload : String} (h : undefinedChars ∈ alternatives payload.toList) :
    optionalLaw payload =
      (if definedAlternatives payload = [] then "undefined"
        else " | ".intercalate (definedAlternatives payload), true) := by
  have hdropped : ((alternatives payload.toList).filter (· ≠ undefinedChars)).length ≠
      (alternatives payload.toList).length := by
    rw [Ne, List.length_filter_eq_length_iff]
    intro hall
    simpa using hall _ h
  unfold optionalLaw definedAlternatives
  rw [if_neg hdropped]
  split
  · rename_i hempty
    rw [List.isEmpty_iff.1 hempty]
    rfl
  · rename_i hne
    rw [if_neg (by simpa using hne)]

@[simp] theorem optionalLaw_snd_iff {payload : String} :
    (optionalLaw payload).2 = true ↔ undefinedChars ∈ alternatives payload.toList := by
  constructor
  · intro h
    by_contra hnone
    rw [optionalLaw_of_not_mem hnone] at h
    cases h
  · intro h
    rw [optionalLaw_of_mem h]

theorem alternatives_undefined : alternatives "undefined".toList = [undefinedChars] := by
  decide

/-- The text that the optional law gives has an alternative `undefined` only if it is that. -/
theorem mem_alternatives_optionalLaw_iff {payload : String} :
    undefinedChars ∈ alternatives (optionalLaw payload).1.toList ↔
      (optionalLaw payload).1 = "undefined" := by
  constructor
  · intro hmem
    by_cases h : undefinedChars ∈ alternatives payload.toList
    · rw [optionalLaw_of_mem h] at hmem ⊢
      by_cases hnil : definedAlternatives payload = []
      · exact if_pos hnil
      · -- What is left is split into the alternatives that were kept.
        rw [if_neg hnil, String.toList_intercalate] at hmem
        have hne : (alternatives payload.toList).filter (· ≠ undefinedChars) ≠ [] :=
          fun hfilter => hnil (by rw [definedAlternatives, hfilter]; rfl)
        have hparts : (definedAlternatives payload).map String.toList =
            (alternatives payload.toList).filter (· ≠ undefinedChars) := by
          simp [definedAlternatives]
        rw [hparts, alternatives_rejoined _ _ hne] at hmem
        simp at hmem
    · rw [optionalLaw_of_not_mem h] at hmem
      exact absurd hmem h
  · intro h
    rw [h, alternatives_undefined]
    exact List.mem_singleton_self _

/-- The optional law leaves its own texts as they are. -/
theorem fst_optionalLaw_optionalLaw (payload : String) :
    (optionalLaw (optionalLaw payload).1).1 = (optionalLaw payload).1 := by
  by_cases h : undefinedChars ∈ alternatives (optionalLaw payload).1.toList
  · rw [mem_alternatives_optionalLaw_iff.1 h]
    decide
  · rw [optionalLaw_of_not_mem h]

/-- Self-contained texts joined with bars are split into what they were, blanks at the ends apart;
no text at all gives the empty text, which is one alternative.  For every payload, the optional law
makes a field optional exactly if some alternative is `undefined`.  Its text is then that of the
other alternatives, or `undefined` if there is none, and otherwise the payload; and the law leaves
that text as it is, optional only if it is `undefined`. -/
theorem optionalLaw_alternatives :
    (∀ texts : List String, (∀ text ∈ texts, SelfContained text.toList) →
      alternatives (" | ".intercalate texts).toList =
        if texts = [] then [[]] else texts.map fun text => trim text.toList) ∧
    ∀ payload : String,
      ((optionalLaw payload).2 = true ↔ undefinedChars ∈ alternatives payload.toList) ∧
      (optionalLaw payload).1 =
        (if (optionalLaw payload).2 = true then
          if definedAlternatives payload = [] then "undefined"
          else " | ".intercalate (definedAlternatives payload)
        else payload) ∧
      (optionalLaw (optionalLaw payload).1).1 = (optionalLaw payload).1 ∧
      ((optionalLaw (optionalLaw payload).1).2 = true ↔ (optionalLaw payload).1 = "undefined") := by
  refine ⟨fun texts htexts => ?_, fun payload => ⟨optionalLaw_snd_iff, ?_, ?_, ?_⟩⟩
  · split
    · rename_i hnil
      rw [hnil]
      rfl
    · rename_i hne
      have hparts : Separate (texts.map String.toList) := by
        refine separate_of_forall (by simpa using hne) fun part hpart => ?_
        obtain ⟨text, htext, rfl⟩ := List.mem_map.1 hpart
        exact htexts text htext
      rw [String.toList_intercalate, hparts.alternatives_intercalate, List.map_map]
      rfl
  · by_cases h : undefinedChars ∈ alternatives payload.toList
    · rw [optionalLaw_of_mem h, if_pos rfl]
    · rw [optionalLaw_of_not_mem h]
      rfl
  · exact fst_optionalLaw_optionalLaw payload
  · exact optionalLaw_snd_iff.trans mem_alternatives_optionalLaw_iff

/-- Texts with bars in brackets and quotes, and with an arrow. -/
def nestedBars : List String :=
  [" Map<a|b, c>", "'x|\\'y'", "(a: A) => B"]

theorem optionalLaw_alternatives_nestedBars :
    (∀ text ∈ nestedBars, SelfContained text.toList) ∧
      alternatives (" | ".intercalate nestedBars).toList =
        nestedBars.map (fun text => trim text.toList) ∧
      optionalLaw "undefined|a|('b" = ("a | ('b", true) ∧
      (optionalLaw "a | ('b").2 = false := by
  have hcontained : ∀ text ∈ nestedBars, SelfContained text.toList := by decide
  have hopen : optionalLaw "undefined|a|('b" = ("a | ('b", true) := by decide
  obtain ⟨hsplit, hlaw⟩ := optionalLaw_alternatives
  obtain ⟨-, -, -, htwice⟩ := hlaw "undefined|a|('b"
  rw [hopen] at htwice
  refine ⟨hcontained, hsplit nestedBars hcontained, hopen, Bool.eq_false_iff.2 fun htrue => ?_⟩
  exact absurd (htwice.1 htrue) (by decide)

end ClientLoom
