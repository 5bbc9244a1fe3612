import ClientLoom.Request
import ClientLoom.Proofs.Outcomes
import ClientLoom.Proofs.PathTokens

/-!
# Reading template literals

A template literal is read from left to right: a backslash and a character stand for the character,
a substitution stands for the value of its expression, a backtick that is not escaped ends the
literal, and any other character stands for itself.  The literal that a request writes for its path
reads as the path with values in the place of its tokens.
-/

namespace ClientLoom

open Text (isIdentifier isIdentifierChar isIdentifierChars templateChars propertyRead)

/-- A reader of expressions: the value of the expression at the front of a text and what follows the
expression. -/
structure ExprReader where
  read? : List Char → Option (List Char × List Char)
  length_le : ∀ {cs value after : List Char},
    read? cs = some (value, after) → after.length ≤ cs.length

/-- A piece of a template literal: a character, or the value of a substitution. -/
inductive TemplatePiece
  | char (c : Char)
  | value (text : List Char)

namespace TemplateLiteral

/-- Puts pieces in front of those that have been read. -/
def prepend (pieces : List TemplatePiece) (read : List TemplatePiece × List Char) :
    List TemplatePiece × List Char :=
  (pieces ++ read.1, read.2)

/-- The pieces of a template literal behind its opening backtick, and what follows the closing
backtick. -/
def bodyPieces? (expr : ExprReader) : List Char → Option (List TemplatePiece × List Char)
  | [] => none
  | '\x60' :: rest => some ([], rest)
  | ['\\'] => none
  | '\\' :: c :: rest => (bodyPieces? expr rest).map (prepend [.char c])
  | '$' :: '{' :: rest =>
    match _h : expr.read? rest with
    | some (value, '}' :: after) => (bodyPieces? expr after).map (prepend [.value value])
    | _ => none
  | c :: rest => (bodyPieces? expr rest).map (prepend [.char c])
termination_by cs => cs.length
decreasing_by
  · simp only [List.length_cons]
    omega
  · have hlength := expr.length_le _h
    simp only [List.length_cons] at hlength ⊢
    omega
  · simp

/-- The pieces of the template literal at the front of a text, and what follows the literal. -/
def pieces? (expr : ExprReader) : List Char → Option (List TemplatePiece × List Char)
  | '\x60' :: rest => bodyPieces? expr rest
  | _ => none

/-- What pieces stand for. -/
def text (pieces : List TemplatePiece) : List Char :=
  pieces.flatMap fun
    | .char c => [c]
    | .value text => text

/-- The values of the substitutions among pieces. -/
def substituted (pieces : List TemplatePiece) : List (List Char) :=
  pieces.filterMap fun
    | .char _ => none
    | .value text => some text

/-- What the template literal at the front of a text stands for, and what follows the literal. -/
def read? (expr : ExprReader) (cs : List Char) : Option (List Char × List Char) :=
  (pieces? expr cs).map fun read => (text read.1, read.2)

section

variable (expr : ExprReader)

theorem bodyPieces?_substitution {code value rest : List Char}
    (h : expr.read? (code ++ '}' :: rest) = some (value, '}' :: rest)) :
    bodyPieces? expr ('$' :: '{' :: (code ++ '}' :: rest)) =
      (bodyPieces? expr rest).map (prepend [.value value]) := by
  rw [bodyPieces?]
  split
  · rename_i value' after hread
    rw [h] at hread
    obtain ⟨rfl, hafter⟩ := Prod.mk.inj (Option.some.inj hread)
    obtain rfl := List.tail_eq_of_cons_eq hafter
    rfl
  · rename_i hno
    exact absurd h (hno value rest)

theorem bodyPieces?_plain {c : Char} {rest : List Char} (hclose : c ≠ '\x60') (hescape : c ≠ '\\')
    (hopen : ¬ (c = '$' ∧ rest.head? = some '{')) :
    bodyPieces? expr (c :: rest) = (bodyPieces? expr rest).map (prepend [.char c]) := by
  rw [bodyPieces?]
  · exact hclose
  · exact fun hc _ => hescape hc
  · exact fun _ _ hc _ => hescape hc
  · intro after hc hrest
    exact hopen ⟨hc, by rw [hrest]; rfl⟩

/-- Escaping puts no brace in front of a text. -/
theorem head?_of_templateChars {cs : List Char} (h : (templateChars cs).head? = some '{') :
    cs.head? = some '{' := by
  cases cs with
  | nil => cases h
  | cons c rest =>
      rw [templateChars] at h
      split_ifs at h with hescape hclose hopen
      · simp at h
      · simp at h
      · simp at h
      · exact h

/-- Fixed text reads as itself, unless what follows is an opening brace: then a dollar sign at the
end of the text would open a substitution. -/
theorem bodyPieces?_templateChars (cs : List Char) {tail : List Char}
    (htail : tail.head? ≠ some '{') :
    bodyPieces? expr (templateChars cs ++ tail) =
      (bodyPieces? expr tail).map (prepend (cs.map .char)) := by
  induction cs with
  | nil =>
      have hnothing : prepend [] = id := rfl
      rw [templateChars, List.nil_append, List.map_nil, hnothing, Option.map_id, id]
  | cons c rest ih =>
      have hcons : ((bodyPieces? expr tail).map (prepend (rest.map .char))).map (prepend [.char c]) =
          (bodyPieces? expr tail).map (prepend ((c :: rest).map .char)) := by
        rw [Option.map_map]
        rfl
      rw [templateChars]
      split_ifs with hescape hclose hopen
      · rw [hescape] at hcons ⊢
        rw [List.cons_append, List.cons_append, bodyPieces?, ih, hcons]
      · rw [hclose] at hcons ⊢
        rw [List.cons_append, List.cons_append, bodyPieces?, ih, hcons]
      · rw [hopen.1] at hcons ⊢
        rw [List.cons_append, List.cons_append, bodyPieces?, ih, hcons]
      · -- A dollar sign that is kept stands in front of no brace, in the text or behind it.
        have hplain : ¬ (c = '$' ∧ (templateChars rest ++ tail).head? = some '{') := by
          rintro ⟨hc, hhead⟩
          rw [List.head?_append] at hhead
          rcases Option.or_eq_some_iff.1 hhead with hrest | ⟨-, hbehind⟩
          · exact hopen ⟨hc, head?_of_templateChars hrest⟩
          · exact htail hbehind
        rw [List.cons_append, bodyPieces?_plain expr hclose hescape hplain, ih, hcons]

end

end TemplateLiteral

/-! ## Reads of parameters -/

/-- The reader of `params.key`, where `params` has the given keys with the given values. -/
def ExprReader.param (keys : List String) (value : String → String) : ExprReader where
  read? cs :=
    match cs.dropPrefix? "params.".toList with
    | none => none
    | some rest =>
      let key := String.ofList (rest.takeWhile isIdentifierChar)
      if isIdentifier key ∧ key ∈ keys then
        some ((value key).toList, rest.dropWhile isIdentifierChar)
      else none
  length_le := by
    intro cs result after h
    split at h
    · cases h
    · rename_i rest hrest
      simp only [Option.ite_none_right_eq_some, Option.some.injEq, Prod.mk.injEq] at h
      obtain ⟨-, -, rfl⟩ := h
      obtain ⟨front, rfl, -⟩ := List.dropPrefix?_eq_some_iff.1 hrest
      have hdrop := (List.dropWhile_suffix isIdentifierChar (l := rest)).length_le
      rw [List.length_append]
      omega

/-- The read of a parameter whose key is an identifier is read as its value, up to the brace behind
it. -/
theorem ExprReader.read?_param {keys : List String} (value : String → String) {key : List Char}
    (hkey : isIdentifierChars key = true) (hmem : String.ofList key ∈ keys) (rest : List Char) :
    (ExprReader.param keys value).read?
        ((propertyRead "params" (String.ofList key)).toList ++ '}' :: rest) =
      some ((value (String.ofList key)).toList, '}' :: rest) := by
  have hident : isIdentifier (String.ofList key) = true := by
    rw [isIdentifier, String.toList_ofList]
    exact hkey
  have htext : (propertyRead "params" (String.ofList key)).toList ++ '}' :: rest =
      "params.".toList ++ (key ++ '}' :: rest) := by
    rw [propertyRead, if_pos hident]
    simp
  have hdrop : ("params.".toList ++ (key ++ '}' :: rest)).dropPrefix? "params.".toList =
      some (key ++ '}' :: rest) :=
    List.dropPrefix?_eq_some_iff.2 ⟨_, rfl, beq_self_eq_true _⟩
  have hspan := Text.span_identifier (Text.all_of_isIdentifierChars hkey) (c := '}') (by decide) rest
  simp only [ExprReader.param, htext, hdrop, hspan, hident, hmem, and_self, if_true]

/-! ## The literal of a path -/

namespace Request

open TemplateLiteral

/-- The pieces that a part of a path is read as. -/
def partPieces (value : String → String) : PathPart → List TemplatePiece
  | .text cs => cs.map .char
  | .token key => [.value (value (String.ofList key)).toList]

theorem text_partPieces (value : String → String) (parts : List PathPart) :
    text (parts.flatMap (partPieces value)) = parts.flatMap (PathPart.filled value) := by
  rw [text, List.flatMap_assoc]
  refine congrArg (parts.flatMap ·) (funext fun part => ?_)
  cases part with
  | text cs => simp [partPieces, PathPart.filled, List.flatMap_map]
  | token key => simp [partPieces, PathPart.filled]

/-- The parts of a path, written one after the other, read as literal text and values.  No part is
read across its end: a dollar sign at the end of literal text has the closing backtick or the dollar
sign of a substitution behind it. -/
theorem bodyPieces?_parts {keys : List String} (value : String → String) {parts : List PathPart}
    (hparts : PathTemplate.WellFormed parts) (hkeys : tokenKeys parts ⊆ keys) (after : List Char) :
    bodyPieces? (.param keys value) (parts.flatMap partChars ++ '\x60' :: after) =
      some (parts.flatMap (partPieces value), after) := by
  induction hparts with
  | nil => rw [List.flatMap_nil, List.nil_append, bodyPieces?, List.flatMap_nil]
  | @token key rest hkey hrest ih =>
      have hmem : String.ofList key ∈ keys := hkeys (by simp [tokenKeys])
      have hrestKeys : tokenKeys rest ⊆ keys :=
        fun other hother => hkeys (by simp_all [tokenKeys])
      have hread := ExprReader.read?_param value hkey hmem
        (rest.flatMap partChars ++ '\x60' :: after)
      rw [List.flatMap_cons, partChars, List.append_assoc]
      simp only [List.cons_append, List.append_assoc, List.nil_append]
      rw [bodyPieces?_substitution _ hread, ih hrestKeys]
      rfl
  | @text cs rest hnext hrest ih =>
      have hrestKeys : tokenKeys rest ⊆ keys := hkeys
      have hhead : (rest.flatMap partChars ++ '\x60' :: after).head? ≠ some '{' := by
        cases rest with
        | nil => simp
        | cons part rest =>
            cases part with
            | text next => exact absurd rfl (hnext next)
            | token key => simp [partChars]
      rw [List.flatMap_cons, partChars, List.append_assoc,
        bodyPieces?_templateChars _ cs hhead, ih hrestKeys]
      rfl

/-- What is known of a request that could be built: every token of the path has a parameter, and
each field comes from the endpoint and its types. -/
theorem of_build {endpoint : EndpointSpec} {types : EndpointTypes} {request : Request}
    (h : build endpoint types = .ok request) :
    tokenKeys (PathTemplate.parts endpoint.path.toList) ⊆ endpoint.paramKeys ∧
      request =
        { name := endpoint.name
          method := endpoint.method
          path := PathTemplate.parts endpoint.path.toList
          query := queryArgument types.params.isSome endpoint.paramKeys
            (tokenKeys (PathTemplate.parts endpoint.path.toList))
          paramsType := types.paramsName
          bodyType := types.bodyName
          responseType := types.responseName
          forwardsBody := types.body.isSome && endpoint.method.acceptsBody } := by
  simp only [build] at h
  split at h
  · cases h
  · rename_i hnone
    refine ⟨fun key hkey => ?_, (Except.ok.inj h).symm⟩
    simpa using List.find?_eq_none.1 hnone key hkey

/-- The path is the first argument. -/
theorem exists_arguments_eq_cons (request : Request) :
    ∃ others, request.arguments = String.ofList (pathChars request.path) :: others := by
  by_cases hbody : request.forwardsBody = true
  · simp [arguments, hbody]
  · simp [arguments, hbody]

/-- The pieces of the literal of a path, whatever stands behind the literal. -/
theorem pieces?_path {endpoint : EndpointSpec} {types : EndpointTypes} {request : Request}
    (h : build endpoint types = .ok request) (value : String → String) (after : List Char) :
    pieces? (.param endpoint.paramKeys value) (pathChars request.path ++ after) =
      some (request.path.flatMap (partPieces value), after) := by
  obtain ⟨hkeys, hrequest⟩ := of_build h
  have hpath : request.path = PathTemplate.parts endpoint.path.toList := by rw [hrequest]
  rw [← hpath] at hkeys
  have hwell : PathTemplate.WellFormed request.path := by
    rw [hpath]
    exact PathTemplate.wellFormed_parts _
  simpa [pieces?, pathChars] using bodyPieces?_parts value hwell hkeys after

theorem exists_intercalate_eq (first : String) (others : List String) :
    ∃ behind, ", ".intercalate (first :: others) = first ++ behind := by
  cases others with
  | nil => exact ⟨"", by rw [String.intercalate_singleton, String.append_empty]⟩
  | cons second others =>
      refine ⟨", " ++ ", ".intercalate (second :: others), ?_⟩
      rw [String.intercalate_cons_cons, String.append_assoc]

/-- The first argument of a call stands right behind the opening bracket. -/
theorem exists_call_eq {request : Request} {first : String} {others : List String}
    (h : request.arguments = first :: others) :
    ∃ behind, request.call = "this.httpClient." ++ request.method.name ++ "<" ++
      ", ".intercalate request.typeArguments ++ ">(" ++ first ++ behind := by
  obtain ⟨behind, hbehind⟩ := exists_intercalate_eq first others
  refine ⟨behind ++ ")", ?_⟩
  unfold call
  rw [h, hbehind, ← String.append_assoc, ← String.append_assoc]

/-- For a request that could be built, the first argument of the call is one template literal.
Whatever stands behind it, it is read as the path with every token replaced by the value of its key,
and no other key than those of the parameters is read. -/
theorem read_pathLiteral {endpoint : EndpointSpec} {types : EndpointTypes} {request : Request}
    (h : build endpoint types = .ok request) (value : String → String) :
    ∃ (literal : String) (others : List String),
      request.arguments = literal :: others ∧
      (∃ behind, request.call = "this.httpClient." ++ request.method.name ++ "<" ++
        ", ".intercalate request.typeArguments ++ ">(" ++ literal ++ behind) ∧
      ∀ after : List Char,
        TemplateLiteral.read? (.param endpoint.paramKeys value) (literal.toList ++ after) =
          some ((PathToken.fill value endpoint.path).toList, after) := by
  obtain ⟨others, hothers⟩ := exists_arguments_eq_cons request
  refine ⟨_, others, hothers, exists_call_eq hothers, fun after => ?_⟩
  have hpath : request.path = PathTemplate.parts endpoint.path.toList := by rw [(of_build h).2]
  rw [read?, String.toList_ofList, pieces?_path h value after, Option.map_some, text_partPieces,
    hpath, PathToken.fill_eq]

/-- An endpoint whose path has what has a meaning in a template literal: a backtick, a backslash, a
dollar sign in front of a brace and of a token, tokens side by side, and braces without a token. -/
def crookedPath : EndpointSpec :=
  { method := .get
    name := "odd"
    path := "/\x60\\$\x7bx-y\x7d$\x7bid\x7d\x7b$k\x7d\x7b1\x7d\x7b"
    params := some (.object [("id", .ofNat 0), ("$k", .string "")]) }

/-- The path of `crookedPath` as it is written in the call. -/
def crookedLiteral : String :=
  "\x60/\\\x60\\\\\\$\x7bx-y\x7d$$\x7bparams.id\x7d$\x7bparams.$k\x7d\x7b1\x7d\x7b\x60"

theorem read_pathLiteral_crookedPath :
    ∃ types request, EndpointTypes.infer crookedPath = .ok types ∧
      build crookedPath types = .ok request ∧ request.arguments = [crookedLiteral] ∧
      TemplateLiteral.read? (.param ["id", "$k"] fun key => "\x60" ++ key) crookedLiteral.toList =
        some ("/\x60\\$\x7bx-y\x7d$\x60id\x60$k\x7b1\x7d\x7b".toList, []) := by
  have hbuilt : ((EndpointTypes.infer crookedPath).bind (build crookedPath)).toOption.map arguments =
      some [crookedLiteral] := by
    decide +kernel
  have hfill : PathToken.fill (fun key => "\x60" ++ key) crookedPath.path =
      "/\x60\\$\x7bx-y\x7d$\x60id\x60$k\x7b1\x7d\x7b" := by
    decide +kernel
  obtain ⟨types, request, htypes, hrequest, harguments⟩ := exists_of_toOption_bind hbuilt
  obtain ⟨literal, others, hcons, -, hread⟩ := read_pathLiteral hrequest fun key => "\x60" ++ key
  obtain ⟨rfl, -⟩ := List.cons.inj (harguments.symm.trans hcons)
  refine ⟨types, request, htypes, hrequest, harguments, ?_⟩
  have hwhole := hread []
  rw [List.append_nil, hfill] at hwhole
  exact hwhole

end Request

end ClientLoom
