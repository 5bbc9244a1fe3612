import ClientLoom.Tag

/-!
# The tag that counts

A text can be split at a tag in many ways.  `TagSplit.find?` scans for an opening, tries its kinds from
the longest down and takes the last closing tag of the line.  This module says what that scan finds:

* a split is found exactly when the text has a valid split at all, and it is then the best one:
  the shortest text in front, then the longest kind, then the longest payload;
* it is what a backtracking search for `<(.+)>(.+)</\1>` comes to first, from the left.
-/

namespace ClientLoom

/-- No character ends the line. -/
def OnLine (cs : List Char) : Prop :=
  ∀ c ∈ cs, isLineBreak c = false

@[simp] theorem onLine_nil : OnLine [] := by
  intro c hc
  cases hc

@[simp] theorem onLine_cons {c : Char} {cs : List Char} :
    OnLine (c :: cs) ↔ isLineBreak c = false ∧ OnLine cs := by
  simp [OnLine]

namespace TagSplit

/-- Kind and payload are non-empty and stand on one line. -/
structure Valid (split : TagSplit) : Prop where
  kind_ne_nil : split.kind ≠ []
  payload_ne_nil : split.payload ≠ []
  kind_onLine : OnLine split.kind
  payload_onLine : OnLine split.payload

/-- The order of splits: the shorter text in front, then the longer kind, then the longer payload. -/
def AtLeast (split other : TagSplit) : Prop :=
  split.before.length < other.before.length ∨
    split.before.length = other.before.length ∧
      (other.kind.length < split.kind.length ∨
        other.kind.length = split.kind.length ∧
          other.payload.length ≤ split.payload.length)

/-- A valid split of a text that no other valid split of it is better than. -/
structure Best (split : TagSplit) (cs : List Char) : Prop where
  text_eq : split.text = cs
  valid : split.Valid
  atLeast : ∀ other : TagSplit, other.text = cs → other.Valid → split.AtLeast other

/-- What stands between the text in front and the text behind: the tag itself. -/
def matched (split : TagSplit) : List Char :=
  '<' :: (split.kind ++ '>' :: (split.payload ++ closing split.kind))

theorem text_eq_append (split : TagSplit) :
    split.text = split.before ++ (split.matched ++ split.after) := by
  simp [text, matched]

/-! ## Openings: all kinds of one opening, the longest first -/

theorem openings_cons_of_break {c : Char} (hc : isLineBreak c = true) (cs : List Char) :
    openings (c :: cs) = [] := by
  simp [openings, hc]

theorem openings_cons {c : Char} (hc : isLineBreak c = false) (cs : List Char) :
    openings (c :: cs) =
      (openings cs).map (fun opening => (c :: opening.1, opening.2)) ++
        (if c = '>' then [([], cs)] else []) := by
  by_cases hgt : c = '>'
  · subst hgt
    simp [openings, hc]
  · simp [openings, hc, hgt]

@[simp] theorem mem_openings {cs kind rest : List Char} :
    (kind, rest) ∈ openings cs ↔ cs = kind ++ '>' :: rest ∧ OnLine kind := by
  induction cs generalizing kind with
  | nil => simp [openings]
  | cons c cs ih =>
      cases hc : isLineBreak c with
      | true =>
          -- The line is over here; `>` itself does not end it.
          rw [openings_cons_of_break hc]
          have hgt : c ≠ '>' := by
            rintro rfl
            exact absurd hc (by decide)
          cases kind with
          | nil => simp [hgt]
          | cons k kind =>
              simp only [List.not_mem_nil, List.cons_append, List.cons.injEq, onLine_cons, false_iff]
              rintro ⟨⟨rfl, -⟩, hk, -⟩
              rw [hc] at hk
              contradiction
      | false =>
          rw [openings_cons hc, List.mem_append, List.mem_map]
          cases kind with
          | nil =>
              have hlonger : ¬ ∃ opening ∈ openings cs, (c :: opening.1, opening.2) = ([], rest) := by
                rintro ⟨opening, -, heq⟩
                exact List.cons_ne_nil _ _ (congrArg Prod.fst heq)
              rw [or_iff_right hlonger]
              by_cases hgt : c = '>'
              · simp [hgt, eq_comm]
              · simp [hgt]
          | cons k kind =>
              have hempty : (k :: kind, rest) ∉ (if c = '>' then [([], cs)] else []) := by
                split <;> simp
              rw [or_iff_left hempty]
              constructor
              · rintro ⟨⟨kind', rest'⟩, hmem, heq⟩
                obtain ⟨⟨rfl, rfl⟩, rfl⟩ := by
                  simpa only [Prod.mk.injEq, List.cons.injEq] using heq
                obtain ⟨rfl, hline⟩ := ih.1 hmem
                exact ⟨rfl, onLine_cons.2 ⟨hc, hline⟩⟩
              · rintro ⟨heq, hline⟩
                obtain ⟨rfl, rfl⟩ := List.cons.inj heq
                exact ⟨(kind, rest), ih.2 ⟨rfl, (onLine_cons.1 hline).2⟩, rfl⟩

theorem openings_pairwise (cs : List Char) :
    (openings cs).Pairwise fun longer shorter => shorter.1.length < longer.1.length := by
  induction cs with
  | nil => simp [openings]
  | cons c cs ih =>
      cases hc : isLineBreak c with
      | true => simp [openings_cons_of_break hc]
      | false =>
          rw [openings_cons hc, List.pairwise_append]
          refine ⟨?_, ?_, ?_⟩
          · rw [List.pairwise_map]
            exact ih.imp fun hlt => by simpa using hlt
          · split <;> simp
          · intro longer hlonger shorter hshorter
            obtain ⟨opening, -, rfl⟩ := List.mem_map.1 hlonger
            by_cases hgt : c = '>'
            · simp only [hgt, if_true, List.mem_singleton] at hshorter
              simp [hshorter]
            · simp [hgt] at hshorter

/-! ## Closings: the last closing tag of the line -/

theorem lastClosing_sound {tag cs payload after : List Char}
    (h : lastClosing tag cs = some (payload, after)) :
    cs = payload ++ (tag ++ after) ∧ OnLine payload := by
  induction cs generalizing payload with
  | nil => simp [lastClosing] at h
  | cons c cs ih =>
      cases hc : isLineBreak c with
      | true => simp [lastClosing, hc] at h
      | false =>
          cases hrest : lastClosing tag cs with
          | some found =>
              obtain ⟨payload', after'⟩ := found
              simp [lastClosing, hc, hrest] at h
              obtain ⟨rfl, rfl⟩ := h
              obtain ⟨htext, hline⟩ := ih hrest
              exact ⟨by rw [htext, List.cons_append], onLine_cons.2 ⟨hc, hline⟩⟩
          | none =>
              by_cases hpre : tag.isPrefixOf (c :: cs) = true
              · simp [lastClosing, hc, hrest, hpre] at h
                obtain ⟨rfl, rfl⟩ := h
                refine ⟨?_, onLine_nil⟩
                exact (List.prefix_iff_eq_append.1 (List.isPrefixOf_iff_prefix.1 hpre)).symm
              · simp [lastClosing, hc, hrest, hpre] at h

/-- Wherever the closing tag stands on the line, the last one stands at least as far behind. -/
theorem lastClosing_longest {kind cs payload after : List Char}
    (htext : cs = payload ++ (closing kind ++ after)) (hline : OnLine payload) :
    ∃ payload' after', lastClosing (closing kind) cs = some (payload', after') ∧
      payload.length ≤ payload'.length := by
  induction payload generalizing cs with
  | nil =>
      have hpre : (closing kind).isPrefixOf cs = true := by
        rw [List.isPrefixOf_iff_prefix, htext, List.nil_append]
        exact List.prefix_append _ _
      obtain ⟨rest, rfl⟩ : ∃ rest, cs = '<' :: rest := ⟨_, htext⟩
      have hopen : isLineBreak '<' = false := by decide
      -- The closing tag stands here; one further on wins if there is one.
      cases hrest : lastClosing (closing kind) rest with
      | some found => exact ⟨'<' :: found.1, found.2, by simp [lastClosing, hopen, hrest], by simp⟩
      | none =>
          exact ⟨[], ('<' :: rest).drop (closing kind).length,
            by simp [lastClosing, hopen, hrest, hpre], by simp⟩
  | cons c payload ih =>
      obtain ⟨hc, hline⟩ := onLine_cons.1 hline
      obtain ⟨payload', after', hfound, hle⟩ := ih rfl hline
      refine ⟨c :: payload', after', ?_, by simpa using hle⟩
      rw [htext, List.cons_append]
      simp [lastClosing, hc, hfound]

/-! ## The tag of one opening -/

theorem ofOpening?_sound {kind rest : List Char} {split : TagSplit}
    (h : ofOpening? (kind, rest) = some split) :
    split.before = [] ∧ split.kind = kind ∧ kind ≠ [] ∧ split.payload ≠ [] ∧
      OnLine split.payload ∧ rest = split.payload ++ (closing kind ++ split.after) := by
  by_cases hkind : kind = []
  · simp [ofOpening?, hkind] at h
  · cases hclosing : lastClosing (closing kind) rest with
    | none => simp [ofOpening?, hkind, hclosing] at h
    | some found =>
        obtain ⟨payload, after⟩ := found
        obtain ⟨htext, hline⟩ := lastClosing_sound hclosing
        by_cases hpayload : payload = []
        · simp [ofOpening?, hkind, hclosing, hpayload] at h
        · simp only [ofOpening?, List.isEmpty_iff, hkind, hclosing, hpayload, if_false,
            Option.some.injEq] at h
          subst h
          exact ⟨rfl, rfl, hkind, hpayload, hline, htext⟩

theorem ofOpening?_longest {kind rest payload after : List Char} (hkind : kind ≠ [])
    (hpayload : payload ≠ []) (hline : OnLine payload)
    (htext : rest = payload ++ (closing kind ++ after)) :
    ∃ split, ofOpening? (kind, rest) = some split ∧
      payload.length ≤ split.payload.length := by
  obtain ⟨payload', after', hfound, hle⟩ := lastClosing_longest htext hline
  have hne : payload' ≠ [] := by
    rintro rfl
    exact hpayload (List.length_eq_zero_iff.1 (Nat.le_zero.1 hle))
  refine ⟨⟨[], kind, payload', after'⟩, ?_, hle⟩
  simp [ofOpening?, hkind, hfound, hne]

/-- What is found at an opening is a valid split with nothing in front. -/
theorem findSome?_openings_sound {rest : List Char} {split : TagSplit}
    (h : (openings rest).findSome? ofOpening? = some split) :
    split.before = [] ∧ split.text = '<' :: rest ∧ split.Valid := by
  obtain ⟨⟨kind, behind⟩, hmem, hsplit⟩ := List.exists_of_findSome?_eq_some h
  obtain ⟨hbefore, rfl, hkind, hpayload, hline, hbehind⟩ := ofOpening?_sound hsplit
  obtain ⟨hrest, hkindLine⟩ := mem_openings.1 hmem
  refine ⟨hbefore, ?_, hkind, hpayload, hkindLine, hline⟩
  rw [text_eq_append, hbefore, hrest, hbehind]
  simp [matched]

/-- Of two kinds of one opening the longer one comes first, so what is found is at least as good as
any other valid split with nothing in front. -/
theorem findSome?_openings_best {rest : List Char} {other : TagSplit} (hbefore : other.before = [])
    (htext : other.text = '<' :: rest) (hvalid : other.Valid) :
    ∃ split, (openings rest).findSome? ofOpening? = some split ∧ split.AtLeast other := by
  have hrest : rest =
      other.kind ++ '>' :: (other.payload ++ (closing other.kind ++ other.after)) := by
    rw [text_eq_append, hbefore] at htext
    simpa [matched] using htext.symm
  obtain ⟨candidate, hcandidate, hlonger⟩ := ofOpening?_longest hvalid.kind_ne_nil
    hvalid.payload_ne_nil hvalid.payload_onLine rfl
  have hmem := mem_openings.2 ⟨hrest, hvalid.kind_onLine⟩
  cases hfind : (openings rest).findSome? ofOpening? with
  | none =>
      rw [List.findSome?_eq_none_iff.1 hfind _ hmem] at hcandidate
      contradiction
  | some split =>
      refine ⟨split, rfl, Or.inr ⟨?_, ?_⟩⟩
      · rw [(findSome?_openings_sound hfind).1, hbefore]
      · obtain ⟨front, ⟨kind, behind⟩, back, hopenings, hsplit, hfront⟩ :=
          List.findSome?_eq_some_iff.1 hfind
        have hkind := (ofOpening?_sound hsplit).2.1
        have hsorted := openings_pairwise rest
        rw [hopenings] at hmem hsorted
        -- The opening of the other split gives a tag, so it does not stand before the one found.
        rcases List.mem_append.1 hmem with hbad | hcons
        · rw [hfront _ hbad] at hcandidate
          contradiction
        · rcases List.mem_cons.1 hcons with hsame | hback
          · obtain ⟨rfl, rfl⟩ := Prod.mk.inj hsame
            obtain rfl := Option.some.inj (hcandidate.symm.trans hsplit)
            exact Or.inr ⟨by rw [hkind], hlonger⟩
          · have hlt := List.rel_of_pairwise_cons (List.pairwise_append.1 hsorted).2.1 hback
            exact Or.inl (by rw [hkind]; exact hlt)

/-! ## The whole text -/

theorem find?_sound {cs : List Char} {split : TagSplit} (h : find? cs = some split) :
    split.text = cs ∧ split.Valid := by
  induction cs generalizing split with
  | nil => simp [find?] at h
  | cons c cs ih =>
      cases hhere : (if c = '<' then (openings cs).findSome? ofOpening? else none) with
      | some found =>
          simp only [find?, hhere, Option.some.injEq] at h
          subst h
          by_cases hc : c = '<'
          · rw [if_pos hc] at hhere
            obtain ⟨-, htext, hvalid⟩ := findSome?_openings_sound hhere
            exact ⟨by rw [htext, hc], hvalid⟩
          · simp [hc] at hhere
      | none =>
          simp only [find?, hhere, Option.map_eq_some_iff] at h
          obtain ⟨later, hlater, rfl⟩ := h
          obtain ⟨htext, hvalid⟩ := ih hlater
          refine ⟨?_, hvalid.1, hvalid.2, hvalid.3, hvalid.4⟩
          rw [← htext]
          simp [text]

theorem find?_best {cs : List Char} {other : TagSplit} (htext : other.text = cs)
    (hvalid : other.Valid) : ∃ split, find? cs = some split ∧ split.AtLeast other := by
  -- The scan goes over the text in front of the other split.
  obtain ⟨before, kind, payload, after⟩ := other
  induction before generalizing cs with
  | nil =>
      obtain ⟨rest, rfl⟩ : ∃ rest, cs = '<' :: rest :=
        ⟨_, htext.symm.trans (by rw [text_eq_append]; rfl)⟩
      obtain ⟨split, hfind, hatLeast⟩ := findSome?_openings_best rfl htext hvalid
      exact ⟨split, by simp [find?, hfind], hatLeast⟩
  | cons c before ih =>
      obtain ⟨rest, rfl, hrest⟩ : ∃ rest, cs = c :: rest ∧
          (⟨before, kind, payload, after⟩ : TagSplit).text = rest :=
        ⟨_, htext.symm.trans (by simp [text]), rfl⟩
      cases hhere : (if c = '<' then (openings rest).findSome? ofOpening? else none) with
      | some split =>
          -- A tag that starts here has less in front than the other one.
          refine ⟨split, by simp [find?, hhere], Or.inl ?_⟩
          by_cases hc : c = '<'
          · rw [if_pos hc] at hhere
            simp [(findSome?_openings_sound hhere).1]
          · simp [hc] at hhere
      | none =>
          obtain ⟨split, hfind, hatLeast⟩ :=
            ih hrest ⟨hvalid.1, hvalid.2, hvalid.3, hvalid.4⟩
          refine ⟨{ split with before := c :: split.before }, by simp [find?, hhere, hfind], ?_⟩
          simpa [AtLeast] using hatLeast

/-- Two splits of one text that are each at least as good as the other are the same. -/
theorem AtLeast.antisymm {split other : TagSplit} (htext : split.text = other.text)
    (hle : split.AtLeast other) (hge : other.AtLeast split) : split = other := by
  obtain ⟨before, kind, payload, after⟩ := split
  obtain ⟨before', kind', payload', after'⟩ := other
  simp only [AtLeast] at hle hge
  have hbefore : before.length = before'.length := by omega
  have hkind : kind.length = kind'.length := by omega
  have hpayload : payload.length = payload'.length := by omega
  simp only [text_eq_append, matched, List.cons_append, List.append_assoc] at htext
  obtain ⟨rfl, htag⟩ := List.append_inj htext hbefore
  obtain ⟨rfl, hbody⟩ := List.append_inj (List.cons.inj htag).2 hkind
  obtain ⟨rfl, hclosing⟩ := List.append_inj (List.cons.inj hbody).2 hpayload
  rw [List.append_cancel_left hclosing]

theorem find?_eq_some_iff {cs : List Char} {split : TagSplit} :
    find? cs = some split ↔ split.Best cs := by
  constructor
  · intro h
    obtain ⟨htext, hvalid⟩ := find?_sound h
    refine ⟨htext, hvalid, fun other hother hotherValid => ?_⟩
    obtain ⟨best, hbest, hatLeast⟩ := find?_best hother hotherValid
    rw [Option.some.inj (h.symm.trans hbest)]
    exact hatLeast
  · rintro ⟨htext, hvalid, hbest⟩
    obtain ⟨found, hfound, hatLeast⟩ := find?_best htext hvalid
    obtain ⟨hfoundText, hfoundValid⟩ := find?_sound hfound
    rw [hfound, AtLeast.antisymm (hfoundText.trans htext.symm) hatLeast
      (hbest found hfoundText hfoundValid)]

theorem isSome_find?_iff {cs : List Char} :
    (find? cs).isSome ↔ ∃ split : TagSplit, split.text = cs ∧ split.Valid := by
  constructor
  · intro h
    obtain ⟨split, hsplit⟩ := Option.isSome_iff_exists.1 h
    exact ⟨split, find?_sound hsplit⟩
  · rintro ⟨split, htext, hvalid⟩
    obtain ⟨found, hfound, -⟩ := find?_best htext hvalid
    rw [hfound]
    rfl

end TagSplit

/-! ## Patterns

The patterns that the scan stands for: single characters, captures `(.+)` and back-references.  A
match is looked for by backtracking, and all of its choices are listed in the order in which they
are tried. -/

/-- An item of a pattern. -/
inductive PatternItem
  | char (c : Char)
  /-- One or more characters of a line, as many as possible, which are kept. -/
  | capture
  /-- The characters of an earlier capture once more. -/
  | again (index : Nat)

/-- A match of a pattern: the text in front, what was captured, and the text behind. -/
structure PatternMatch where
  before : List Char
  captures : List (List Char)
  after : List Char

namespace Pattern

/-- The ways to take one or more characters of a line: those taken and the rest, the longest first. -/
def runs : List Char → List (List Char × List Char)
  | [] => []
  | c :: rest =>
    if isLineBreak c then []
    else (runs rest).map (fun run => (c :: run.1, run.2)) ++ [([c], rest)]

/-- The ways in which items match at the front of a text, after some captures: all captures and what
is left, in the order in which backtracking comes to them. -/
def matchesAt : List PatternItem → List (List Char) → List Char →
    List (List (List Char) × List Char)
  | [], captures, cs => [(captures, cs)]
  | .char c :: items, captures, cs =>
    match cs with
    | [] => []
    | d :: rest => if d = c then matchesAt items captures rest else []
  | .capture :: items, captures, cs =>
    (runs cs).flatMap fun run => matchesAt items (captures ++ [run.1]) run.2
  | .again index :: items, captures, cs =>
    let taken := (captures[index]?).getD []
    if taken.isPrefixOf cs then matchesAt items captures (cs.drop taken.length) else []

/-- The first match of a pattern, at the leftmost place where there is one. -/
def search (items : List PatternItem) : List Char → Option PatternMatch
  | [] => (matchesAt items [] []).head?.map fun found => ⟨[], found.1, found.2⟩
  | c :: rest =>
    match (matchesAt items [] (c :: rest)).head? with
    | some found => some ⟨[], found.1, found.2⟩
    | none => (search items rest).map fun found => { found with before := c :: found.before }

/-- The pattern `<(.+)>(.+)</\1>`. -/
def tag : List PatternItem :=
  [.char '<', .capture, .char '>', .capture, .char '<', .char '/', .again 0, .char '>']

end Pattern

namespace TagSplit

open Pattern (runs matchesAt search)

/-- The opening whose kind is empty comes last. -/
theorem findSome?_openings_eq_or {β : Type} (f : List Char × List Char → Option β) (cs : List Char) :
    (openings cs).findSome? f =
      ((openings cs).findSome? fun opening => if opening.1 = [] then none else f opening).or
        (match cs with
          | '>' :: rest => f ([], rest)
          | _ => none) := by
  cases cs with
  | nil => simp [openings]
  | cons c cs =>
      cases hc : isLineBreak c with
      | true =>
          have hgt : c ≠ '>' := by
            rintro rfl
            exact absurd hc (by decide)
          simp [openings_cons_of_break hc, hgt]
      | false =>
          rw [openings_cons hc]
          by_cases hgt : c = '>'
          · simp [hgt, List.findSome?_append, List.findSome?_map, Function.comp_def]
          · simp [hgt, List.findSome?_map, Function.comp_def]

/-- A capture followed by `>` tries the same kinds as the scan, in the same order. -/
theorem findSome?_runs_gt {β : Type} (f : List Char × List Char → Option β) (cs : List Char) :
    (runs cs).findSome? (fun run =>
        match run.2 with
        | '>' :: rest => f (run.1, rest)
        | _ => none) =
      (openings cs).findSome? fun opening => if opening.1 = [] then none else f opening := by
  induction cs generalizing f with
  | nil => simp [runs, openings]
  | cons c cs ih =>
      cases hc : isLineBreak c with
      | true => simp [runs, hc, openings_cons_of_break hc]
      | false =>
          have hlast : (if c = '>' then [([], cs)] else [] : List (List Char × List Char)).findSome?
              (fun opening => if opening.1 = [] then none else f opening) = none := by
            split <;> simp
          -- The character goes in front of every kind of the rest, the empty kind included, which
          -- a capture of the rest alone does not have.
          have hlonger := ih fun opening => f (c :: opening.1, opening.2)
          have hall := findSome?_openings_eq_or (fun opening => f (c :: opening.1, opening.2)) cs
          rw [openings_cons hc, List.findSome?_append, hlast, Option.or_none, List.findSome?_map]
          simp only [Function.comp_def, List.cons_ne_nil, if_false]
          rw [hall, ← hlonger]
          simp [runs, hc, List.findSome?_append, List.findSome?_map, Function.comp_def]

/-- A capture followed by the closing tag comes first to the last closing tag, unless nothing stands
in front of it. -/
theorem findSome?_runs_closing {β : Type} (kind : List Char) (f : List Char × List Char → β)
    (cs : List Char) :
    (runs cs).findSome? (fun run =>
        if (closing kind).isPrefixOf run.2 then
          some (f (run.1, run.2.drop (closing kind).length))
        else none) =
      ((lastClosing (closing kind) cs).bind fun found =>
        if found.1 = [] then none else some (f found)) := by
  induction cs generalizing f with
  | nil => simp [runs, lastClosing]
  | cons c cs ih =>
      cases hc : isLineBreak c with
      | true => simp [runs, lastClosing, hc]
      | false =>
          have hlonger := ih fun found => f (c :: found.1, found.2)
          simp only [runs, hc, Bool.false_eq_true, if_false, List.findSome?_append,
            List.findSome?_map, Function.comp_def, List.findSome?_cons, List.findSome?_nil]
          rw [hlonger]
          cases hrest : lastClosing (closing kind) cs with
          | some found =>
              obtain ⟨payload, after⟩ := found
              cases payload with
              | nil =>
                  -- The last closing tag stands right behind the character, which is the payload.
                  obtain ⟨rfl, -⟩ := lastClosing_sound hrest
                  rw [List.nil_append] at hrest ⊢
                  simp [lastClosing, hc, hrest, List.isPrefixOf_iff_prefix]
              | cons p payload => simp [lastClosing, hc, hrest]
          | none =>
              have hpre : (closing kind).isPrefixOf cs = false := by
                cases hpre : (closing kind).isPrefixOf cs with
                | false => rfl
                | true =>
                    obtain ⟨after, htext⟩ := List.isPrefixOf_iff_prefix.1 hpre
                    obtain ⟨payload, behind, hfound, -⟩ :=
                      lastClosing_longest (htext.symm.trans (List.nil_append _).symm) onLine_nil
                    rw [hrest] at hfound
                    contradiction
              simp [lastClosing, hc, hrest, hpre]
              split <;> simp

theorem isPrefixOf_append (first second cs : List Char) :
    (first ++ second).isPrefixOf cs =
      (first.isPrefixOf cs && second.isPrefixOf (cs.drop first.length)) := by
  induction first generalizing cs with
  | nil => simp
  | cons f first ih =>
      cases cs with
      | nil => simp
      | cons c cs => simp [List.isPrefixOf_cons_cons, ih, Bool.and_assoc]

theorem matchesAt_char (c : Char) (items : List PatternItem) (captures : List (List Char))
    (cs : List Char) :
    matchesAt (.char c :: items) captures cs =
      if [c].isPrefixOf cs then matchesAt items captures (cs.drop 1) else [] := by
  cases cs with
  | nil => simp [matchesAt]
  | cons d cs =>
      by_cases hd : d = c
      · subst hd
        simp [matchesAt]
      · have hne : c ≠ d := Ne.symm hd
        simp [matchesAt, List.isPrefixOf_cons_cons, hd, hne]

/-- The closing tag is the end of the pattern, after both captures. -/
theorem matchesAt_closing (kind payload cs : List Char) :
    matchesAt [.char '<', .char '/', .again 0, .char '>'] [kind, payload] cs =
      if (closing kind).isPrefixOf cs then
        [([kind, payload], cs.drop (closing kind).length)]
      else [] := by
  have hclosing : closing kind = ['<'] ++ (['/'] ++ (kind ++ ['>'])) := rfl
  rw [hclosing, isPrefixOf_append, isPrefixOf_append, isPrefixOf_append, matchesAt_char,
    matchesAt_char, matchesAt, matchesAt_char, matchesAt]
  simp only [List.length_append, List.length_singleton, List.drop_drop, List.getElem?_cons_zero,
    Option.getD_some, Bool.and_eq_true]
  grind

/-- The pattern after its first capture and `>`. -/
theorem head?_matchesAt_payload (kind rest : List Char) :
    (matchesAt [.capture, .char '<', .char '/', .again 0, .char '>'] [kind] rest).head? =
      (lastClosing (closing kind) rest).bind fun found =>
        if found.1 = [] then none else some ([kind, found.1], found.2) := by
  rw [matchesAt, List.head?_flatMap,
    ← findSome?_runs_closing kind (fun found => ([kind, found.1], found.2))]
  congr 1
  funext run
  change (matchesAt _ [kind, run.1] run.2).head? = _
  rw [matchesAt_closing]
  split <;> rfl

/-- The whole pattern, at a place where an opening stands. -/
theorem head?_matchesAt_tag (cs : List Char) :
    (matchesAt Pattern.tag [] ('<' :: cs)).head? =
      ((openings cs).findSome? ofOpening?).map fun split =>
        ([split.kind, split.payload], split.after) := by
  have hkinds : (matchesAt Pattern.tag [] ('<' :: cs)).head? =
      (runs cs).findSome? fun run =>
        match run.2 with
        | '>' :: rest =>
          (matchesAt [.capture, .char '<', .char '/', .again 0, .char '>'] [run.1] rest).head?
        | _ => none := by
    rw [Pattern.tag, matchesAt_char, if_pos (by simp), matchesAt, List.head?_flatMap]
    congr 1
    funext run
    change (matchesAt _ [run.1] run.2).head? = _
    cases run.2 with
    | nil => simp [matchesAt]
    | cons c rest =>
        by_cases hc : c = '>'
        · simp [hc, matchesAt]
        · simp [hc, matchesAt]
  rw [hkinds, findSome?_runs_gt fun opening =>
    (matchesAt [.capture, .char '<', .char '/', .again 0, .char '>'] [opening.1] opening.2).head?,
    List.map_findSome?]
  congr 1
  funext opening
  rw [head?_matchesAt_payload]
  by_cases hkind : opening.1 = []
  · simp [ofOpening?, hkind]
  · cases hclosing : lastClosing (closing opening.1) opening.2 with
    | none => simp [ofOpening?, hkind, hclosing]
    | some found =>
        by_cases hpayload : found.1 = []
        · simp [ofOpening?, hkind, hclosing, hpayload]
        · simp [ofOpening?, hkind, hclosing, hpayload]

/-- The scan finds what the search for the pattern finds. -/
theorem find?_eq_search (cs : List Char) :
    (find? cs).map (fun split =>
        (⟨split.before, [split.kind, split.payload], split.after⟩ : PatternMatch)) =
      search Pattern.tag cs := by
  induction cs with
  | nil => rfl
  | cons c cs ih =>
      by_cases hc : c = '<'
      · subst hc
        rw [search, head?_matchesAt_tag, ← ih]
        cases hhere : (openings cs).findSome? ofOpening? with
        | some split => simp [find?, hhere, (findSome?_openings_sound hhere).1]
        | none => simp [find?, hhere, Function.comp_def]
      · have hnone : matchesAt Pattern.tag [] (c :: cs) = [] := by
          simp [Pattern.tag, matchesAt, hc]
        rw [search, hnone, ← ih]
        simp [find?, hc, Function.comp_def]

end TagSplit

/-! ## Tags and their bytes -/

@[simp] theorem byteLength_cons (c : Char) (cs : List Char) :
    byteLength (c :: cs) = c.utf8Size + byteLength cs :=
  rfl

theorem byteLength_eq_utf8ByteSize (cs : List Char) :
    byteLength cs = (String.ofList cs).utf8ByteSize := by
  induction cs with
  | nil => rfl
  | cons c cs ih =>
      have hcons : String.ofList (c :: cs) = String.singleton c ++ String.ofList cs := by
        rw [← String.toList_inj]
        simp
      rw [hcons, String.utf8ByteSize_append, String.utf8ByteSize_singleton, ← ih, byteLength_cons]

@[simp] theorem byteLength_append (front back : List Char) :
    byteLength (front ++ back) = byteLength front + byteLength back := by
  induction front with
  | nil => simp [byteLength]
  | cons c front ih =>
      rw [List.cons_append, byteLength_cons, byteLength_cons, ih]
      omega

namespace Tag

@[simp] theorem stop_ofSplit (split : TagSplit) :
    (ofSplit split).stop = byteLength (split.before ++ split.matched) := by
  have hopen : ('<').utf8Size = 1 := by decide
  have hclose : ('>').utf8Size = 1 := by decide
  simp only [ofSplit, TagSplit.matched, byteLength_append, byteLength_cons, hopen, hclose]
  omega

/-- The tag that a match of the pattern stands for; the offsets are those of the bytes between the
text in front and the text behind. -/
def ofMatch? (text : String) (found : PatternMatch) : Option Tag :=
  match found.captures with
  | [kind, payload] =>
    some {
      kind := String.ofList kind
      payload := String.ofList payload
      start := (String.ofList found.before).utf8ByteSize
      stop := text.utf8ByteSize - (String.ofList found.after).utf8ByteSize }
  | _ => none

/-- A tag is found exactly when the text can be split at one.  It is that of the best split, with
its byte offsets, and what the search for `<(.+)>(.+)</\1>` comes to first. -/
theorem find?_leftmost_greedy (text : String) :
    ((find? text).isSome ↔ ∃ split : TagSplit, split.text = text.toList ∧ split.Valid) ∧
    (∀ tag : Tag, find? text = some tag ↔
      ∃ split : TagSplit, split.Best text.toList ∧
        tag.kind = String.ofList split.kind ∧
        tag.payload = String.ofList split.payload ∧
        tag.start = (String.ofList split.before).utf8ByteSize ∧
        tag.stop = (String.ofList (split.before ++ split.matched)).utf8ByteSize) ∧
    find? text = (Pattern.search Pattern.tag text.toList).bind (ofMatch? text) := by
  refine ⟨?_, ?_, ?_⟩
  · rw [find?, Option.isSome_map]
    exact TagSplit.isSome_find?_iff
  · intro tag
    rw [find?, Option.map_eq_some_iff]
    constructor
    · rintro ⟨split, hsplit, rfl⟩
      refine ⟨split, TagSplit.find?_eq_some_iff.1 hsplit, rfl, rfl, ?_, ?_⟩
      · exact byteLength_eq_utf8ByteSize split.before
      · rw [stop_ofSplit, byteLength_eq_utf8ByteSize]
    · rintro ⟨split, hbest, hkind, hpayload, hstart, hstop⟩
      refine ⟨split, TagSplit.find?_eq_some_iff.2 hbest, ?_⟩
      obtain ⟨kind, payload, start, stop⟩ := tag
      rw [← byteLength_eq_utf8ByteSize] at hstart hstop
      rw [← stop_ofSplit] at hstop
      subst hkind hpayload hstart hstop
      rfl
  · rw [← TagSplit.find?_eq_search, find?]
    cases hfind : TagSplit.find? text.toList with
    | none => rfl
    | some split =>
        have htext := (TagSplit.find?_sound hfind).1
        have hbytes : text.utf8ByteSize =
            byteLength (split.before ++ split.matched) + byteLength split.after := by
          rw [← byteLength_append, List.append_assoc, ← TagSplit.text_eq_append, htext,
            byteLength_eq_utf8ByteSize, String.ofList_toList]
        have hstop : (ofSplit split).stop =
            text.utf8ByteSize - (String.ofList split.after).utf8ByteSize := by
          rw [stop_ofSplit, hbytes, ← byteLength_eq_utf8ByteSize, Nat.add_sub_cancel]
        change some (ofSplit split) = some _
        rw [← hstop, ← byteLength_eq_utf8ByteSize]
        rfl

end Tag

end ClientLoom
