import ClientLoom.HookPlan
import ClientLoom.Proofs.Outcomes

/-!
# The names that a hook imports

A name stands alone in a text where no identifier character is next to it.  The search for such a
place looks at occurrences from left to right and passes over those that overlap an earlier one.  It
misses none: in front of an occurrence that begins inside another one stands a character of the name
itself.  The texts of a hook are joined with line feeds, which belong to no name and keep apart what
they join.  So a hook imports exactly the names that stand alone in its signature or in one of its
options.
-/

namespace ClientLoom

open Text (isIdentifierChar)

/-- The name is not empty and has identifier characters only. -/
def IsWord (name : List Char) : Prop :=
  name ≠ [] ∧ ∀ c ∈ name, isIdentifierChar c = true

instance (name : List Char) : Decidable (IsWord name) :=
  decidable_of_iff (name ≠ [] ∧ name.all isIdentifierChar = true) (by rw [IsWord, List.all_eq_true])

/-- The name occurs in the text with no identifier character directly in front of it or behind
it. -/
def StandsAlone (name text : List Char) : Prop :=
  ∃ front behind, text = front ++ (name ++ behind) ∧
    (∀ c ∈ front.getLast?, isIdentifierChar c = false) ∧
    ∀ c ∈ behind.head?, isIdentifierChar c = false

/-- The name stands alone in the text, past `skip` characters; `before` is the character in front of
the text. -/
def StandsPast (name : List Char) (before : Option Char) (skip : Nat) (text : List Char) : Prop :=
  ∃ front behind, text = front ++ (name ++ behind) ∧ skip ≤ front.length ∧
    (∀ c ∈ front.getLast?.or before, isIdentifierChar c = false) ∧
    ∀ c ∈ behind.head?, isIdentifierChar c = false

theorem standsPast_zero {name text : List Char} :
    StandsPast name none 0 text ↔ StandsAlone name text := by
  simp [StandsPast, StandsAlone]

/-- Whether a name stands alone can be found out by looking at every place of the text. -/
theorem standsAlone_iff_exists_place {name text : List Char} :
    StandsAlone name text ↔
      ∃ place ∈ List.range (text.length + 1), name <+: text.drop place ∧
        (text.take place).getLast?.any isIdentifierChar = false ∧
        (text.drop (place + name.length)).head?.any isIdentifierChar = false := by
  simp only [Option.any_eq_false]
  constructor
  · rintro ⟨front, behind, rfl, hfront, hbehind⟩
    refine ⟨front.length, ?_, ?_, ?_, ?_⟩
    · rw [List.mem_range, List.length_append]
      omega
    · rw [List.drop_left]
      exact List.prefix_append _ _
    · rwa [List.take_left]
    · rwa [← List.drop_drop, List.drop_left, List.drop_left]
  · rintro ⟨place, -, ⟨behind, hdrop⟩, hfront, hbehind⟩
    refine ⟨text.take place, behind, ?_, hfront, ?_⟩
    · rw [hdrop, List.take_append_drop]
    · rwa [← List.drop_drop, ← hdrop, List.drop_left] at hbehind

instance (name text : List Char) : Decidable (StandsAlone name text) :=
  decidable_of_iff _ standsAlone_iff_exists_place.symm

/-! ## The search for a name -/

section Search

variable {name text rest : List Char} {before : Option Char} {c : Char} {skip : Nat}

theorem StandsPast.mono {skip' : Nat} (h : StandsPast name before skip text) (hle : skip' ≤ skip) :
    StandsPast name before skip' text := by
  obtain ⟨front, behind, htext, hskip, halone⟩ := h
  exact ⟨front, behind, htext, Nat.le_trans hle hskip, halone⟩

/-- The first character of a text is skipped by going on behind it. -/
theorem standsPast_cons (before : Option Char) :
    StandsPast name before (skip + 1) (c :: rest) ↔ StandsPast name (some c) skip rest := by
  have hlast : ∀ front : List Char,
      (c :: front).getLast?.or before = front.getLast?.or (some c) := by
    intro front
    cases front with
    | nil => rfl
    | cons d front => simp [List.getLast?_cons]
  constructor
  · rintro ⟨front, behind, htext, hskip, hfront, hbehind⟩
    cases front with
    | nil => simp at hskip
    | cons d front =>
        obtain ⟨rfl, hrest⟩ := List.cons.inj htext
        rw [hlast] at hfront
        exact ⟨front, behind, hrest, Nat.le_of_succ_le_succ hskip, hfront, hbehind⟩
  · rintro ⟨front, behind, rfl, hskip, hfront, hbehind⟩
    refine ⟨c :: front, behind, rfl, Nat.succ_le_succ hskip, ?_, hbehind⟩
    rwa [hlast]

/-- Where the name does not begin, or begins next to an identifier character, it stands alone only
further behind. -/
theorem StandsPast.one_le (h : StandsPast name before 0 text)
    (hhere : ∀ behind, text = name ++ behind →
      ¬ ((∀ c ∈ before, isIdentifierChar c = false) ∧
        ∀ c ∈ behind.head?, isIdentifierChar c = false)) :
    StandsPast name before 1 text := by
  obtain ⟨front, behind, htext, -, hfront, hbehind⟩ := h
  cases front with
  | nil => exact absurd ⟨hfront, hbehind⟩ (hhere behind htext)
  | cons d front =>
      exact ⟨d :: front, behind, htext, by simp, hfront, hbehind⟩

/-- Behind the beginning of an occurrence the name does not stand alone before the occurrence has
ended: a character of the name would be in front of it. -/
theorem StandsPast.length_le (hname : ∀ c ∈ name, isIdentifierChar c = true)
    (h : StandsPast name before 1 text) (hbegins : name <+: text) :
    StandsPast name before name.length text := by
  obtain ⟨front, behind, htext, hone, hfront, hbehind⟩ := h
  refine ⟨front, behind, htext, ?_, hfront, hbehind⟩
  by_contra hshort
  have hinside : front <+: name := by
    refine List.prefix_of_prefix_length_le ?_ hbegins (by omega)
    rw [htext]
    exact List.prefix_append _ _
  cases hlast : front.getLast? with
  | none =>
      rw [List.getLast?_eq_none_iff] at hlast
      simp [hlast] at hone
  | some d =>
      have hchar := hname d (hinside.subset (List.mem_of_getLast? hlast))
      rw [hfront d (by simp [hlast])] at hchar
      cases hchar

end Search

namespace HookPlan

/-- The search finds a name exactly if it stands alone in what is not skipped. -/
theorem findsName_iff {name : List Char} (hname : IsWord name) (before : Option Char) (skip : Nat)
    (text : List Char) :
    findsName name before skip text = true ↔ StandsPast name before skip text := by
  induction text generalizing before skip with
  | nil =>
      have hnone : ¬ StandsPast name before skip [] := by
        rintro ⟨front, behind, htext, -⟩
        simp [hname.1] at htext
      simp [findsName, hnone]
  | cons c rest ih =>
      cases skip with
      | succ skip => rw [findsName, ih, standsPast_cons]
      | zero =>
          rw [findsName]
          split_ifs with hbegins
          · obtain ⟨behind, hbehind⟩ := List.isPrefixOf_iff_prefix.1 hbegins
            have hdrop : (c :: rest).drop name.length = behind := by
              rw [← hbehind, List.drop_left]
            have hlength : name.length - 1 + 1 = name.length := by
              have hpos := List.length_pos_iff.2 hname.1
              omega
            rw [hdrop, Bool.or_eq_true, ih, ← standsPast_cons before, hlength]
            by_cases hhere : (∀ d ∈ before, isIdentifierChar d = false) ∧
                ∀ d ∈ behind.head?, isIdentifierChar d = false
            · -- The occurrence at the front stands alone.
              have halone : StandsPast name before 0 (c :: rest) :=
                ⟨[], behind, hbehind.symm, Nat.le_refl 0, hhere⟩
              refine iff_of_true (.inl ?_) halone
              simpa [Option.any_eq_false] using hhere
            · have hnot : ¬ (!before.any isIdentifierChar && !behind.head?.any isIdentifierChar) =
                  true := by
                simpa [Option.any_eq_false] using hhere
              constructor
              · rintro (hfound | hlater)
                · exact absurd hfound hnot
                · exact hlater.mono (Nat.zero_le _)
              · intro halone
                refine .inr ((halone.one_le fun other hother => ?_).length_le hname.2 ?_)
                · rwa [← List.append_cancel_left (hbehind.trans hother)]
                · exact ⟨behind, hbehind⟩
          · rw [ih, ← standsPast_cons before]
            refine ⟨fun hlater => hlater.mono (Nat.zero_le _), fun halone => ?_⟩
            refine halone.one_le fun behind hbehind => ?_
            exact absurd (List.isPrefixOf_iff_prefix.2 ⟨behind, hbehind.symm⟩) hbegins

theorem references_iff {text name : String} (hname : IsWord name.toList) :
    references text name = true ↔ StandsAlone name.toList text.toList := by
  rw [references, findsName_iff hname, standsPast_zero]

end HookPlan

/-! ## Texts that are joined -/

/-- A character that no name has keeps the two texts around it apart. -/
theorem standsAlone_append_cons {name : List Char} (hname : IsWord name) {separator : Char}
    (hseparator : isIdentifierChar separator = false) (first second : List Char) :
    StandsAlone name (first ++ separator :: second) ↔
      StandsAlone name first ∨ StandsAlone name second := by
  have hnotMem : separator ∉ name := by
    intro hmem
    rw [hname.2 separator hmem] at hseparator
    cases hseparator
  constructor
  · rintro ⟨front, behind, htext, hfront, hbehind⟩
    rcases List.append_eq_append_iff.1 htext with ⟨middle, rfl, hsecond⟩ | ⟨middle, rfl, hname'⟩
    · -- The occurrence begins behind the first text.
      cases middle with
      | nil =>
          obtain ⟨d, rest, hcons⟩ := List.exists_cons_of_ne_nil hname.1
          rw [hcons] at hsecond hnotMem
          exact absurd (List.cons.inj hsecond).1 (List.ne_of_not_mem_cons hnotMem)
      | cons d middle =>
          obtain ⟨rfl, hrest⟩ := List.cons.inj hsecond
          refine .inr ⟨middle, behind, hrest, fun e he => hfront e ?_, hbehind⟩
          cases middle with
          | nil => cases he
          | cons d' middle => simpa [List.getLast?_append, List.getLast?_cons] using he
    · rcases List.append_eq_append_iff.1 hname' with
        ⟨inside, rfl, hbehind'⟩ | ⟨inside, rfl, hinside⟩
      · refine .inl ⟨front, inside, rfl, hfront, fun e he => hbehind e ?_⟩
        cases inside with
        | nil => cases he
        | cons d inside =>
            rw [hbehind']
            exact he
      · cases inside with
        | nil => exact .inl ⟨front, [], by simp, hfront, by simp⟩
        | cons d inside =>
            obtain ⟨rfl, -⟩ := List.cons.inj hinside
            exact absurd (List.mem_append_right _ List.mem_cons_self) hnotMem
  · rintro (⟨front, behind, rfl, hfront, hbehind⟩ | ⟨front, behind, rfl, hfront, hbehind⟩)
    · refine ⟨front, behind ++ separator :: second, by simp, hfront, fun e he => ?_⟩
      cases behind with
      | nil =>
          obtain rfl : separator = e := by simpa using he
          exact hseparator
      | cons d behind => exact hbehind e he
    · refine ⟨first ++ separator :: front, behind, by simp, fun e he => ?_, hbehind⟩
      cases front with
      | nil =>
          obtain rfl : separator = e := by simpa using he
          exact hseparator
      | cons d front =>
          exact hfront e (by simpa [List.getLast?_append, List.getLast?_cons] using he)

namespace HookPlan

/-- The name stands alone in the signature or in the value of an option. -/
def Uses (plan : HookPlan) (name : String) : Prop :=
  StandsAlone name.toList plan.signature.toList ∨
    ∃ option ∈ plan.options, StandsAlone name.toList option.2.toList

instance (plan : HookPlan) (name : String) : Decidable (plan.Uses name) :=
  inferInstanceAs (Decidable (_ ∨ _))

theorem standsAlone_joined {name : List Char} (hname : IsWord name) (signature : List Char)
    (options : List (String × String)) :
    StandsAlone name (signature ++ options.flatMap fun option => '\n' :: option.2.toList) ↔
      StandsAlone name signature ∨ ∃ option ∈ options, StandsAlone name option.2.toList := by
  induction options generalizing signature with
  | nil => simp
  | cons option options ih =>
      have hjoined : (option :: options).flatMap (fun option => '\n' :: option.2.toList) =
          '\n' :: (option.2.toList ++ options.flatMap fun option => '\n' :: option.2.toList) := by
        simp
      rw [hjoined, standsAlone_append_cons hname (by decide), ih, List.exists_mem_cons_iff]

/-- A plan is made from a draft that has its signature and its options. -/
theorem exists_draft_of_build {context : HookContext} {endpoint : EndpointSpec} {plan : HookPlan}
    (h : build context endpoint = .ok (some plan)) : ∃ draft, plan = ofDraft context draft := by
  obtain ⟨hook, -, hplan⟩ := bind_eq_ok.1 h
  cases hook with
  | none => cases hplan
  | query options | infinite options | mutation options =>
      obtain rfl := Option.some.inj (Except.ok.inj hplan)
      exact ⟨_, rfl⟩

theorem references_usedText_iff {context : HookContext} {draft : Draft} {name : String}
    (hname : IsWord name.toList) :
    references draft.usedText name = true ↔ (ofDraft context draft).Uses name := by
  have hused : draft.usedText.toList =
      draft.signature.toList ++ draft.options.flatMap fun option => '\n' :: option.2.toList := by
    simp [Draft.usedText, String.toList_join, List.flatMap_map]
  rw [references_iff hname, hused, standsAlone_joined hname]
  rfl

/-- A name of identifier characters is found in a text exactly if it stands alone somewhere in it.
So a hook whose type and instance names are of this kind imports those that stand alone in its
signature or in an option, in the order parameters, body, instance. -/
theorem serviceImports_stand_alone :
    (∀ text name : String, IsWord name.toList →
      (references text name = true ↔ StandsAlone name.toList text.toList)) ∧
    ∀ (context : HookContext) (endpoint : EndpointSpec) (plan : HookPlan),
      build context endpoint = .ok (some plan) →
      (∀ name ∈ context.request.paramsType.toList ++ context.request.bodyType.toList ++
        [context.service.instanceName], IsWord name.toList) →
      plan.serviceImports = (context.request.paramsType.toList ++ context.request.bodyType.toList ++
        [context.service.instanceName]).filter fun name => plan.Uses name := by
  refine ⟨fun text name hname => references_iff hname,
    fun context endpoint plan hbuild hnames => ?_⟩
  obtain ⟨draft, rfl⟩ := exists_draft_of_build hbuild
  refine List.filter_congr fun name hmem => ?_
  rw [Bool.eq_iff_iff, decide_eq_true_iff]
  exact references_usedText_iff (hnames name hmem)

/-- A mutation with a function of its own.  The name of the body type occurs in it twice,
overlapping itself, inside a longer name, and then alone. -/
def dollarMutation : EndpointSpec :=
  { method := .post
    name := "add"
    path := "/"
    useMutation := some (.options
      { mutationFn := some "(all: $$$) => todoService.add(all as $$, TParams2)" }) }

/-- The names that the mutation may import. -/
def dollarContext : HookContext :=
  { service := .ofKey "todo"
    types := ⟨none, none, none⟩
    request :=
      { name := "add"
        method := .post
        path := []
        query := .absent
        paramsType := some "TParams"
        bodyType := some "$$"
        responseType := none
        forwardsBody := false } }

theorem serviceImports_stand_alone_dollarMutation :
    references "$$$ $$" "$$" = true ∧
      ∃ plan, build dollarContext dollarMutation = .ok (some plan) ∧
        plan.serviceImports = ["$$", "todoService"] := by
  obtain ⟨hfound, himports⟩ := serviceImports_stand_alone
  refine ⟨(hfound "$$$ $$" "$$" (by decide)).2 (by decide), _, rfl, ?_⟩
  rw [himports dollarContext dollarMutation _ rfl (by decide)]
  decide +kernel

end HookPlan

end ClientLoom
