import ClientLoom.Proofs.ExampleShapes
import ClientLoom.Proofs.StringLiterals
import ClientLoom.Proofs.TemplateLiterals
import ClientLoom.RuntimeValue

/-!
# Reading values computed at request time

A header or a base address without a tag is written as a string literal, and a raw tag that is the
whole text as the expression in it.  With any other tag it is one template literal with one
substitution, which stands for the text with the value of the tag in the place of its bytes.  Two ways
of escaping meet there: that of the fixed text, and that of the string literal which a store is asked
for.
-/

namespace ClientLoom

open Text (isIdentifierChar stringLiteral templateChars)

/-! ## Expressions in a substitution -/

/-- In front of a closing brace the code is read as the value. -/
def ExprReader.Reads (expr : ExprReader) (code value : String) : Prop :=
  ∀ rest : List Char,
    expr.read? (code.toList ++ '}' :: rest) = some (value.toList, '}' :: rest)

/-- The reader of `HttpClient.helper('argument')`, where `call` gives what a helper returns for an
argument. -/
def ExprReader.clientCall (call : String → String → String) : ExprReader where
  read? cs :=
    match cs.dropPrefix? "HttpClient.".toList with
    | none => none
    | some rest =>
      match rest.dropWhile isIdentifierChar with
      | '(' :: argument =>
        match StringLiteral.read? argument with
        | some (text, ')' :: after) =>
          let helper := String.ofList (rest.takeWhile isIdentifierChar)
          some ((call helper (String.ofList text)).toList, after)
        | _ => none
      | _ => none
  length_le := by
    intro cs value after h
    split at h
    · cases h
    · rename_i rest hrest
      split at h
      · rename_i argument hargument
        split at h
        · rename_i text after' hread
          obtain ⟨-, rfl⟩ := Prod.mk.inj (Option.some.inj h)
          obtain ⟨front, rfl, -⟩ := List.dropPrefix?_eq_some_iff.1 hrest
          have hdrop := (List.dropWhile_suffix isIdentifierChar (l := rest)).length_le
          have hlength := StringLiteral.length_of_read? hread
          rw [hargument] at hdrop
          simp only [List.length_append, List.length_cons] at hdrop hlength ⊢
          omega
        · cases h
      · cases h

/-- A call of a helper on a string literal is read as what the helper returns for the text of the
literal. -/
theorem ExprReader.clientCall_reads (call : String → String → String) {helper : String}
    (hhelper : ∀ c ∈ helper.toList, isIdentifierChar c = true) {literal argument : String}
    (hliteral : StringLiteral.Denotes literal argument) :
    (clientCall call).Reads ("HttpClient." ++ helper ++ "(" ++ literal ++ ")")
      (call helper argument) := by
  intro rest
  have hcode : ("HttpClient." ++ helper ++ "(" ++ literal ++ ")").toList ++ '}' :: rest =
      "HttpClient.".toList ++ (helper.toList ++ '(' :: (literal.toList ++ ')' :: '}' :: rest)) := by
    simp
  have hdrop : ("HttpClient.".toList ++
        (helper.toList ++ '(' :: (literal.toList ++ ')' :: '}' :: rest))).dropPrefix?
          "HttpClient.".toList =
      some (helper.toList ++ '(' :: (literal.toList ++ ')' :: '}' :: rest)) :=
    List.dropPrefix?_eq_some_iff.2 ⟨_, rfl, beq_self_eq_true _⟩
  have hspan := Text.span_identifier hhelper (c := '(') (by decide)
    (literal.toList ++ ')' :: '}' :: rest)
  have hread := hliteral (')' :: '}' :: rest)
  simp only [clientCall, hcode, hdrop, hspan, hread, String.ofList_toList]

namespace TemplateLiteral

/-- The code is one template literal with one substitution, of this value; as a whole it stands for
`whole`. -/
def SubstitutesOnce (expr : ExprReader) (code value whole : String) : Prop :=
  ∀ behind : List Char, ∃ pieces,
    pieces? expr (code.toList ++ behind) = some (pieces, behind) ∧
      substituted pieces = [value.toList] ∧ text pieces = whole.toList

/-- Fixed text around one substitution is read as it is. -/
theorem pieces?_template {expr : ExprReader} {code value : String} (h : expr.Reads code value)
    (front back behind : List Char) :
    pieces? expr ((RuntimeValue.template front code back).render.toList ++ behind) =
      some (front.map .char ++ .value value.toList :: back.map .char, behind) := by
  have hcode : (RuntimeValue.template front code back).render.toList ++ behind =
      '\x60' :: (templateChars front ++ '$' :: '{' :: (code.toList ++ '}' ::
        (templateChars back ++ '\x60' :: behind))) := by
    simp [RuntimeValue.render]
  have hback : bodyPieces? expr (templateChars back ++ '\x60' :: behind) =
      some (back.map .char, behind) := by
    rw [bodyPieces?_templateChars expr back (by simp), bodyPieces?]
    simp [prepend]
  rw [hcode, pieces?, bodyPieces?_templateChars expr front (by simp),
    bodyPieces?_substitution expr (h _), hback]
  rfl

theorem substituted_around (front back value : List Char) :
    substituted (front.map .char ++ .value value :: back.map .char) = [value] := by
  simp [substituted, List.filterMap_append, List.filterMap_map]

theorem text_around (front back value : List Char) :
    text (front.map .char ++ .value value :: back.map .char) = front ++ value ++ back := by
  simp [text, List.flatMap_append, List.flatMap_map]

end TemplateLiteral

/-! ## The bytes of a tag -/

namespace Tag

/-- A text with another one in the place of the bytes of a tag. -/
def replaced (tag : Tag) (text value : String) : String :=
  PathToken.slice text 0 tag.start ++ value ++ PathToken.slice text tag.stop text.utf8ByteSize

variable {split : TagSplit} {text : String}

theorem replaced_ofSplit (h : split.text = text.toList) (value : String) :
    ((ofSplit split).replaced text value).toList = split.before ++ value.toList ++ split.after := by
  have htext : text = String.ofList ([] ++ split.before ++ (split.matched ++ split.after)) := by
    rw [List.nil_append, ← TagSplit.text_eq_append, h, String.ofList_toList]
  -- The bytes in front of the tag are those of `before`, and the bytes behind it those of `after`.
  have hfront := PathToken.slice_append [] split.before (split.matched ++ split.after)
  have hback := PathToken.slice_append (split.before ++ split.matched) split.after []
  have hsize : byteLength (split.before ++ split.matched ++ split.after) = text.utf8ByteSize := by
    rw [byteLength_eq_utf8ByteSize, List.append_assoc, ← TagSplit.text_eq_append, h,
      String.ofList_toList]
  rw [← htext] at hfront
  rw [List.append_nil, hsize, List.append_assoc, ← TagSplit.text_eq_append, h,
    String.ofList_toList, ← stop_ofSplit] at hback
  have hstart : (ofSplit split).start = byteLength ([] ++ split.before) := rfl
  rw [replaced, hstart]
  simp only [String.toList_append]
  rw [show (0 : Nat) = byteLength [] from rfl, hfront, hback]
  simp

@[simp] theorem byteLength_eq_zero_iff {cs : List Char} : byteLength cs = 0 ↔ cs = [] := by
  cases cs with
  | nil => simp [byteLength]
  | cons c cs =>
      have hsize := c.utf8Size_pos
      rw [byteLength_cons]
      simp only [List.cons_ne_nil, iff_false]
      omega

/-- A tag covers the text that it was found in exactly if nothing stands around it. -/
theorem covers_ofSplit_iff (h : split.text = text.toList) :
    (ofSplit split).covers text = true ↔ split.before = [] ∧ split.after = [] := by
  have hsize : byteLength text.toList =
      (ofSplit split).stop + byteLength split.after := by
    rw [← h, TagSplit.text_eq_append, stop_ofSplit, ← List.append_assoc, byteLength_append]
  have hstart : (ofSplit split).start = byteLength split.before := rfl
  rw [covers, Bool.and_eq_true, beq_iff_eq, beq_iff_eq, hsize, hstart, byteLength_eq_zero_iff,
    left_eq_add, byteLength_eq_zero_iff]

end Tag

/-! ## Values of texts -/

/-- A kind of tag that asks a store, and the helper of the client that does it. -/
inductive StoreHelper : TagKind → String → Prop
  | cookie : StoreHelper .cookie "getFromCookie"
  | localStorage : StoreHelper .localStorage "getFromLocalStorage"
  | sessionStorage : StoreHelper .sessionStorage "getFromSessionStorage"

namespace RuntimeValue

variable {text field : String} {tag : Tag} {kind : TagKind}

theorem ofText_of_find?_eq_none (h : Tag.find? text = none) (field : String) :
    ofText text field = .ok (.literal text) := by
  have hsplit : TagSplit.find? text.toList = none := Option.map_eq_none_iff.1 h
  simp only [ofText, hsplit]

theorem ofText_of_unknown (h : Tag.find? text = some tag)
    (hunknown : ∀ kind : TagKind, tag.kind ≠ kind.name) (field : String) :
    ofText text field = .error (.unsupportedTag tag.kind field) := by
  obtain ⟨split, hsplit, rfl⟩ := Option.map_eq_some_iff.1 h
  have hkind : TagKind.parse (String.ofList split.kind) field =
      .error (.unsupportedTag (String.ofList split.kind) field) :=
    TagKind.parse_eq_error_iff.2 ⟨hunknown, rfl⟩
  simp only [ofText, hsplit, hkind]
  rfl

/-- The value of a text with a tag that has a meaning, and how the text is split at the tag. -/
theorem ofText_of_known (h : Tag.find? text = some tag) (hkind : tag.kind = kind.name)
    (field : String) :
    ∃ split : TagSplit, tag = .ofSplit split ∧ split.text = text.toList ∧
      ofText text field = .ok (if kind = .raw ∧ tag.covers text = true then .expression tag.payload
        else .template split.before (lookupCode kind tag.payload) split.after) := by
  obtain ⟨split, hsplit, rfl⟩ := Option.map_eq_some_iff.1 h
  have htext := (TagSplit.find?_sound hsplit).1
  have hparse : TagKind.parse (String.ofList split.kind) field = .ok kind :=
    TagKind.parse_eq_ok_iff.2 hkind
  refine ⟨split, rfl, htext, ?_⟩
  simp only [ofText, hsplit, hparse, bind, Except.bind, Tag.covers_ofSplit_iff htext,
    List.isEmpty_iff]
  split_ifs with hraw
  · rw [hraw.1]
    rfl
  · rfl

/-- A value fails exactly for a tag without a meaning. -/
theorem ofText_eq_error_iff {e : Error} :
    ofText text field = .error e ↔
      ∃ tag, Tag.find? text = some tag ∧ (∀ kind : TagKind, tag.kind ≠ kind.name) ∧
        e = .unsupportedTag tag.kind field := by
  constructor
  · intro h
    cases hfind : Tag.find? text with
    | none =>
        rw [ofText_of_find?_eq_none hfind] at h
        cases h
    | some tag =>
        by_cases hunknown : ∀ kind : TagKind, tag.kind ≠ kind.name
        · rw [ofText_of_unknown hfind hunknown] at h
          exact ⟨tag, rfl, hunknown, (Except.error.inj h).symm⟩
        · obtain ⟨kind, hkind⟩ := not_forall_not.1 hunknown
          obtain ⟨split, -, -, hvalue⟩ := ofText_of_known hfind hkind field
          rw [hvalue] at h
          cases h
  · rintro ⟨tag, hfind, hunknown, rfl⟩
    exact ofText_of_unknown hfind hunknown field

/-- The template literal of a text stands for the text with the value of the code in the place of
the tag. -/
theorem substitutesOnce_template {split : TagSplit} (htext : split.text = text.toList)
    {expr : ExprReader} {code value : String} (h : expr.Reads code value) :
    TemplateLiteral.SubstitutesOnce expr (template split.before code split.after).render value
      ((Tag.ofSplit split).replaced text value) := by
  intro behind
  refine ⟨_, TemplateLiteral.pieces?_template h _ _ behind,
    TemplateLiteral.substituted_around _ _ _, ?_⟩
  rw [TemplateLiteral.text_around, Tag.replaced_ofSplit htext]

theorem lookupCode_of_storeHelper {helper : String} (h : StoreHelper kind helper)
    (payload : String) :
    lookupCode kind payload = "HttpClient." ++ helper ++ "(" ++ stringLiteral payload ++ ")" ∧
      kind ≠ .raw ∧ ∀ c ∈ helper.toList, isIdentifierChar c = true := by
  cases h with
  | cookie | localStorage | sessionStorage =>
      exact ⟨rfl, by decide, List.all_eq_true.1 (by decide +kernel)⟩

/-- For every text of a header or a base address.  It has no value exactly if it has a tag without a
meaning, which the error names.  Without a tag its value is written as one string literal of the text.
With a tag that asks a store it is one template literal whose only substitution calls the helper of the
store on a string literal of the payload; whatever the helpers return, the template literal stands for
the text with the returned value in the place of the bytes of the tag.  A raw tag that is the whole
text is written as its payload.  Any other raw tag gives a template literal as well, with the payload
as its only substitution, which stands for the text with the value of the payload in the place of the
tag, for every reader of expressions that reads the payload. -/
theorem render_ofText (text field : String) :
    (∀ e : Error, ofText text field = .error e ↔
      ∃ tag, Tag.find? text = some tag ∧ (∀ kind : TagKind, tag.kind ≠ kind.name) ∧
        e = .unsupportedTag tag.kind field) ∧
    (Tag.find? text = none → ∃ value, ofText text field = .ok value ∧
      StringLiteral.Denotes value.render text) ∧
    ∀ (tag : Tag) (kind : TagKind), Tag.find? text = some tag → tag.kind = kind.name →
      ∃ value, ofText text field = .ok value ∧
        (∀ helper, StoreHelper kind helper →
          (∃ front literal back, StringLiteral.Denotes literal tag.payload ∧
            value.render = "\x60" ++ front ++ "$\x7b" ++
              ("HttpClient." ++ helper ++ "(" ++ literal ++ ")") ++ "\x7d" ++ back ++ "\x60") ∧
          ∀ lookup : String → String → String,
            TemplateLiteral.SubstitutesOnce (.clientCall lookup) value.render
              (lookup helper tag.payload) (tag.replaced text (lookup helper tag.payload))) ∧
        (kind = .raw → tag.covers text = true → value.render = tag.payload) ∧
        (kind = .raw → tag.covers text = false →
          (∃ front back, value.render =
            "\x60" ++ front ++ "$\x7b" ++ tag.payload ++ "\x7d" ++ back ++ "\x60") ∧
          ∀ (expr : ExprReader) (result : String), expr.Reads tag.payload result →
            TemplateLiteral.SubstitutesOnce expr value.render result
              (tag.replaced text result)) := by
  refine ⟨fun e => ofText_eq_error_iff, fun hfind => ?_, fun tag kind hfind hkind => ?_⟩
  · exact ⟨_, ofText_of_find?_eq_none hfind field, StringLiteral.denotes_stringLiteral text⟩
  · obtain ⟨split, rfl, htext, hvalue⟩ := ofText_of_known hfind hkind field
    refine ⟨_, hvalue, fun helper hhelper => ?_, fun hraw hcovers => ?_, fun hraw hcovers => ?_⟩
    · obtain ⟨hcode, hstore, hname⟩ := lookupCode_of_storeHelper hhelper (Tag.ofSplit split).payload
      have hliteral := StringLiteral.denotes_stringLiteral (Tag.ofSplit split).payload
      rw [if_neg fun hraw => hstore hraw.1, hcode]
      exact ⟨⟨_, _, _, hliteral, rfl⟩, fun lookup =>
        substitutesOnce_template htext (ExprReader.clientCall_reads lookup hname hliteral)⟩
    · rw [if_pos ⟨hraw, hcovers⟩]
      rfl
    · have hcode : lookupCode kind (Tag.ofSplit split).payload = (Tag.ofSplit split).payload := by
        rw [hraw]
        rfl
      rw [if_neg fun hboth => Bool.false_ne_true (hcovers.symm.trans hboth.2), hcode]
      exact ⟨⟨_, _, rfl⟩, fun expr result hreads => substitutesOnce_template htext hreads⟩

/-- A header with the marks of a template literal around a tag, whose payload has those of a string
literal as well. -/
def crookedHeader : String :=
  "\x60\\ $\x7bx\x7d $<cookie>it's '\x7d\x60 \\n</cookie>\x7b"

theorem render_ofText_crookedHeader :
    ∃ value, ofText crookedHeader "headers.X" = .ok value ∧
      value.render = "\x60\\\x60\\\\ \\$\x7bx\x7d $$\x7bHttpClient.getFromCookie(" ++
        "'it\\'s \\'\x7d\x60 \\\\n')\x7d\x7b\x60" ∧
      TemplateLiteral.SubstitutesOnce (.clientCall fun helper key => helper ++ ":" ++ key)
        value.render "getFromCookie:it's '\x7d\x60 \\n"
        "\x60\\ $\x7bx\x7d $getFromCookie:it's '\x7d\x60 \\n\x7b" := by
  obtain ⟨tag, hfind, hkind, hpayload, hreplaced⟩ : ∃ tag, Tag.find? crookedHeader = some tag ∧
      tag.kind = TagKind.cookie.name ∧ tag.payload = "it's '\x7d\x60 \\n" ∧
      tag.replaced crookedHeader "getFromCookie:it's '\x7d\x60 \\n" =
        "\x60\\ $\x7bx\x7d $getFromCookie:it's '\x7d\x60 \\n\x7b" :=
    ⟨_, rfl, rfl, rfl, by decide +kernel⟩
  have hrender : (ofText crookedHeader "headers.X").toOption.map render =
      some ("\x60\\\x60\\\\ \\$\x7bx\x7d $$\x7bHttpClient.getFromCookie(" ++
        "'it\\'s \\'\x7d\x60 \\\\n')\x7d\x7b\x60") := by
    decide +kernel
  obtain ⟨value, hvalue, hstore, -, -⟩ :=
    (render_ofText crookedHeader "headers.X").2.2 tag .cookie hfind hkind
  rw [hvalue] at hrender
  have hlookup := (hstore "getFromCookie" .cookie).2 fun helper key => helper ++ ":" ++ key
  rw [hpayload] at hlookup
  refine ⟨value, hvalue, Option.some.inj hrender, ?_⟩
  rw [← hreplaced]
  exact hlookup

end RuntimeValue

end ClientLoom
