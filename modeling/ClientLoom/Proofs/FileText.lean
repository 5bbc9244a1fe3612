import ClientLoom.Proofs.GeneratedPaths

/-!
# The text of generated files

The templates of the generated files show only values that their contexts have, so rendering a
compiled service never fails.  `ServiceModule.moduleFile_eq` and `HookPlan.render_eq` give the text
of a module and of a hook, part by part.
-/

namespace ClientLoom

theorem mapM_eq_ok {ε α β : Type} {f : α → Except ε β} {result : α → β} {items : List α}
    (h : ∀ item ∈ items, f item = .ok (result item)) : items.mapM f = .ok (items.map result) := by
  induction items with
  | nil => rfl
  | cons item items ih =>
      have hitems := ih fun other hother => h other (List.mem_cons_of_mem item hother)
      rw [List.mapM_cons, h item List.mem_cons_self, hitems]
      rfl

/-! ## Parts of a template -/

namespace Template

variable {scope : Scope} {name : String} {value : Json} {body : List TemplateNode}

@[simp] theorem render_last (scope : Scope) (content : String) :
    render scope [.text content] = .ok content := by
  have hnil : render scope [] = .ok "" := by rw [render]
  rw [render_text hnil, String.append_empty]

theorem lookup?_own {fields : List (String × Json)} (hscope : scope.context 0 = .object fields)
    (hvalue : Entries.get? name fields = some value) :
    scope.lookup? (own name) = .ok (some value) := by
  simp [own, Scope.lookup?, hscope, descend?, child?, hvalue, bind, Except.bind]

theorem render_field {shown others : String} {nodes : List TemplateNode}
    (h : scope.lookup? (own name) = .ok (some (.string shown)))
    (hothers : render scope nodes = .ok others) :
    render scope (field name :: nodes) = .ok (shown ++ others) := by
  refine render_cons ?_ hothers
  rw [field, renderNode, h]
  rfl

theorem renderNode_given {text : String} (h : scope.lookup? (own name) = .ok (some value))
    (hbody : isTruthy value = true → render scope body = .ok text) :
    renderNode scope (given name body) = .ok (if isTruthy value then text else "") := by
  rw [given, renderNode, h]
  by_cases htruthy : isTruthy value = true
  · simp [bind, Except.bind, htruthy, hbody htruthy]
  · simp [bind, Except.bind, htruthy, renderOtherwise]

/-- A part is repeated for every item, whatever the marks of the item are. -/
theorem renderNode_forEach {α : Type} {items : List α} {toItem : α → Json} {text : α → String}
    (h : scope.lookup? (own name) = .ok (some (.array (items.map toItem))))
    (hbody : ∀ item ∈ items, ∀ marks : Entries Json,
      render { scope with repetitions := ⟨toItem item, marks⟩ :: scope.repetitions } body =
        .ok (text item)) :
    renderNode scope (forEach name body) = .ok (String.join (items.map text)) := by
  obtain ⟨marks, hmarks⟩ : ∃ marks : Nat → Entries Json,
      repetitions? (.array (items.map toItem)) =
        some (items.zipIdx.map fun item => ⟨toItem item.1, marks item.2⟩) := by
    refine ⟨fun i => positionMarks i (items.map toItem).length ++ [("index", .ofNat i)], ?_⟩
    rw [repetitions?, List.zipIdx_map, List.map_map]
    rfl
  have hparts : (items.zipIdx.map fun item => (⟨toItem item.1, marks item.2⟩ : Repetition)).mapM
      (fun inner => render { scope with repetitions := inner :: scope.repetitions } body) =
        .ok (items.map text) := by
    have htexts : items.zipIdx.map (fun item => text item.1) = items.map text := by
      conv_rhs => rw [← List.zipIdx_map_fst 0 items, List.map_map]
      rfl
    rw [← htexts, List.mapM_map]
    refine mapM_eq_ok fun item hitem => hbody item.1 ?_ (marks item.2)
    exact List.fst_mem_of_mem_zipIdx hitem
  rw [forEach, renderNode, h]
  refine bind_eq_ok.2 ⟨_, rfl, ?_⟩
  rw [Option.bind_some, hmarks]
  cases items with
  | nil => rfl
  | cons item items =>
      show (List.mapM _ _ >>= _) = _
      rw [hparts]
      rfl

/-- A text between two others, which show only together with it. -/
def optionalText (before after : String) : Option String → String
  | some text => if text.isEmpty then "" else before ++ text ++ after
  | none => ""

theorem renderNode_given_text {before after : String} {text? : Option String}
    (h : scope.lookup? (own name) = .ok (some (.ofText? text?))) :
    renderNode scope (given name [.text before, field name, .text after]) =
      .ok (optionalText before after text?) := by
  cases text? with
  | none =>
      rw [given, renderNode, h]
      rfl
  | some text =>
      rw [renderNode_given h fun _ => render_text (render_field h (render_last scope after))]
      by_cases hempty : text.isEmpty = true
      · simp [Json.ofText?, isTruthy, optionalText, hempty]
      · simp [Json.ofText?, isTruthy, optionalText, hempty, String.append_assoc]

end Template

/-! ## Modules -/

namespace ServiceModule

open Template

/-- A declaration as it stands in a module. -/
def declText (decl : TypeDecl) : String :=
  "\n" ++ decl.render ++ "\n"

/-- The line of a header. -/
def headerText (header : String × RuntimeValue) : String :=
  "      config.headers[" ++ Text.stringLiteral header.1 ++ "] = " ++ header.2.render ++ ";\n"

/-- The method of a request. -/
def methodText (request : Request) : String :=
  "\n  async " ++ request.name ++ "(" ++ request.signature ++ ") \x7b\n" ++
    optionalText "    " "\n" request.prelude? ++ "    return " ++ request.call ++ ";\n" ++ "  \x7d\n"

/-- The text of a module in front of its class. -/
def headText (service : ServiceModule) : String :=
  "import HttpClient from './HttpClient';\n" ++ optionalText "\n" "\n" service.topScript ++
    String.join (service.declarations.map declText)

/-- The class of a module. -/
def classText (service : ServiceModule) : String :=
  "\nclass " ++ service.ident.className ++ " \x7b\n" ++
    "  private httpClient: HttpClient = new HttpClient(\x7b\n" ++
    "    baseURL: " ++ service.baseUrl.render ++ ",\n" ++
    "    requestHook: (config) => \x7b\n" ++ String.join (service.headers.map headerText) ++
    "      return config;\n" ++ "    \x7d,\n" ++ "  \x7d);\n" ++
    String.join (service.endpoints.map fun endpoint => methodText endpoint.request) ++ "\x7d\n\n"

/-- The export of the instance of a module. -/
def exportText (ident : ServiceIdent) : String :=
  "export const " ++ ident.instanceName ++ " = new " ++ ident.className ++ "();\n"

/-- The text of a module. -/
def text (service : ServiceModule) : String :=
  service.headText ++ service.classText ++ exportText service.ident

/-- The methods of a module, one for every request. -/
theorem renderNode_methods (service : ServiceModule) :
    renderNode { root := service.context } (forEach "methods" [
      .text "\n  async ", field "name", .text "(", field "signature", .text ") \x7b\n",
      given "prelude" [.text "    ", field "prelude", .text "\n"],
      .text "    return ", field "call", .text ";\n",
      .text "  \x7d\n"]) =
      .ok (String.join (service.endpoints.map fun endpoint => methodText endpoint.request)) := by
  have hmethods : Scope.lookup? { root := service.context } (own "methods") =
      .ok (some (.array (service.endpoints.map fun endpoint => requestContext endpoint.request))) :=
    lookup?_own rfl (by simp [Entries.get?])
  refine renderNode_forEach hmethods fun endpoint _ marks => ?_
  unfold methodText
  simp only [String.append_assoc]
  refine render_text (render_field (lookup?_own rfl (by simp [Entries.get?])) ?_)
  refine render_text (render_field (lookup?_own rfl (by simp [Entries.get?])) ?_)
  refine render_text (render_cons (renderNode_given_text
    (lookup?_own rfl (by simp [Entries.get?]))) ?_)
  refine render_text (render_field (lookup?_own rfl (by simp [Entries.get?])) ?_)
  exact render_text (render_last _ _)

theorem renderNode_headers (service : ServiceModule) :
    renderNode { root := service.context } (forEach "headers"
      [.text "      config.headers[", field "name", .text "] = ", field "value", .text ";\n"]) =
      .ok (String.join (service.headers.map headerText)) := by
  have hheaders : Scope.lookup? { root := service.context } (own "headers") =
      .ok (some (.array (service.headers.map fun header => .object [
        ("name", .string (Text.stringLiteral header.1)), ("value", .string header.2.render)]))) :=
    lookup?_own rfl (by simp [Entries.get?])
  refine renderNode_forEach hheaders fun header _ marks => ?_
  unfold headerText
  simp only [String.append_assoc]
  refine render_text (render_field (lookup?_own rfl (by simp [Entries.get?])) ?_)
  exact render_text (render_field (lookup?_own rfl (by simp [Entries.get?])) (render_last _ _))

theorem renderNode_declarations (service : ServiceModule) :
    renderNode { root := service.context } (forEach "declarations"
      [.text "\n", .value (.path { names := [] }), .text "\n"]) =
      .ok (String.join (service.declarations.map declText)) := by
  have hdecls : Scope.lookup? { root := service.context } (own "declarations") =
      .ok (some (.array (service.declarations.map fun decl => .string decl.render))) :=
    lookup?_own rfl (by simp [Entries.get?])
  refine renderNode_forEach hdecls fun decl _ marks => ?_
  unfold declText
  simp only [String.append_assoc]
  exact render_text (render_cons (by rw [renderNode]; rfl) (render_last _ _))

theorem render_service (service : ServiceModule) :
    Template.Library.builtin.render "service" service.context = .ok service.text := by
  have hexport : ("\x7d\n\nexport const " : String) = "\x7d\n\n" ++ "export const " := rfl
  have htemplate : Template.Library.builtin.render "service" service.context =
      Template.render { root := service.context } Template.service := by
    simp [Library.render, Library.builtin, Entries.get?]
  rw [htemplate]
  unfold Template.service text headText classText exportText
  simp only [String.append_assoc]
  refine render_text (render_cons (renderNode_given_text
    (lookup?_own rfl (by simp [Entries.get?]))) ?_)
  refine render_cons service.renderNode_declarations ?_
  refine render_text (render_field (lookup?_own rfl (by simp [Entries.get?])) ?_)
  refine render_text (render_text (render_text ?_))
  refine render_field (lookup?_own rfl (by simp [Entries.get?])) ?_
  refine render_text (render_text (render_cons service.renderNode_headers ?_))
  refine render_text (render_text (render_text (render_cons service.renderNode_methods ?_)))
  rw [← String.append_assoc, ← hexport]
  refine render_text (render_field (lookup?_own rfl (by simp [Entries.get?])) ?_)
  exact render_text (render_field (lookup?_own rfl (by simp [Entries.get?])) (render_last _ _))

theorem declText_infix {service : ServiceModule} {decl : TypeDecl}
    (h : decl ∈ service.declarations) : (declText decl).toList <:+: service.text.toList := by
  obtain ⟨front, back, hsplit⟩ := List.append_of_mem h
  refine ⟨("import HttpClient from './HttpClient';\n" ++
      optionalText "\n" "\n" service.topScript ++ String.join (front.map declText)).toList,
    (String.join (back.map declText) ++ service.classText ++ exportText service.ident).toList, ?_⟩
  unfold text headText
  rw [hsplit]
  simp [String.toList_join]

theorem exportText_infix (service : ServiceModule) :
    (exportText service.ident).toList <:+: service.text.toList := by
  refine ⟨(service.headText ++ service.classText).toList, [], ?_⟩
  unfold text
  simp

/-- The module of a compiled service can always be rendered. -/
@[simp] theorem moduleFile_eq (service : ServiceModule) :
    service.moduleFile = .ok ⟨modulePath service.ident.className, service.text⟩ := by
  rw [moduleFile, render_service]
  rfl

end ServiceModule

/-! ## Hooks -/

namespace HookPlan

open Template

/-- The line that imports names from the module of the service; none if there are no names. -/
def importText (plan : HookPlan) : String :=
  optionalText "import \x7b " (" \x7d from '../../" ++ plan.className ++ "';\n")
    (some (", ".intercalate plan.serviceImports))

/-- The line of an option. -/
def optionText (option : String × String) : String :=
  "    " ++ option.1 ++ ": " ++ option.2 ++ ",\n"

/-- The text of a hook file. -/
def text (plan : HookPlan) : String :=
  "import \x7b " ++ plan.queryImports ++ " \x7d from '@tanstack/react-query';\n" ++
    plan.importText ++ optionalText "\n" "\n" plan.defaultScript ++
    "\nconst " ++ plan.hookName ++ " = (" ++ plan.signature ++ ") => \x7b\n" ++
    (if plan.queryClient then "  const queryClient = useQueryClient();\n" else "") ++
    "  return " ++ plan.hookFn ++ "(\x7b\n" ++ String.join (plan.options.map optionText) ++
    "  \x7d);\n\x7d;\n\nexport default " ++ plan.hookName ++ ";\n"

theorem renderNode_imports (plan : HookPlan) :
    renderNode { root := plan.context } (given "service_imports" [
      .text "import \x7b ", field "service_imports",
      .text " \x7d from '../../", field "class_name", .text "';\n"]) = .ok plan.importText := by
  have himports : Scope.lookup? { root := plan.context } (own "service_imports") =
      .ok (some (.string (", ".intercalate plan.serviceImports))) :=
    lookup?_own rfl (by simp [Entries.get?])
  have hclass : Scope.lookup? { root := plan.context } (own "class_name") =
      .ok (some (.string plan.className)) :=
    lookup?_own rfl (by simp [Entries.get?])
  rw [renderNode_given himports fun _ => render_text (render_field himports
    (render_text (render_field hclass (render_last _ _))))]
  unfold importText optionalText
  by_cases hempty : (", ".intercalate plan.serviceImports).isEmpty = true
  · simp [isTruthy, hempty]
  · simp [isTruthy, hempty, String.append_assoc]

theorem renderNode_options (plan : HookPlan) :
    renderNode { root := plan.context } (forEach "options"
      [.text "    ", field "name", .text ": ", field "value", .text ",\n"]) =
      .ok (String.join (plan.options.map optionText)) := by
  have hoptions : Scope.lookup? { root := plan.context } (own "options") =
      .ok (some (.array (plan.options.map fun option =>
        .object [("name", .string option.1), ("value", .string option.2)]))) :=
    lookup?_own rfl (by simp [Entries.get?])
  refine renderNode_forEach hoptions fun option _ marks => ?_
  unfold optionText
  simp only [String.append_assoc]
  refine render_text (render_field (lookup?_own rfl (by simp [Entries.get?])) ?_)
  exact render_text (render_field (lookup?_own rfl (by simp [Entries.get?])) (render_last _ _))

/-- A planned hook can always be rendered. -/
@[simp] theorem render_eq (plan : HookPlan) : plan.render = .ok plan.text := by
  have htemplate : plan.render = Template.render { root := plan.context } Template.hook := by
    simp [HookPlan.render, Library.render, Library.builtin, Entries.get?]
  have hclient : Scope.lookup? { root := plan.context } (own "query_client") =
      .ok (some (.bool plan.queryClient)) :=
    lookup?_own rfl (by simp [Entries.get?])
  rw [htemplate]
  unfold Template.hook text
  simp only [String.append_assoc]
  refine render_text (render_field (lookup?_own rfl (by simp [Entries.get?])) ?_)
  refine render_text (render_cons plan.renderNode_imports ?_)
  refine render_cons (renderNode_given_text (lookup?_own rfl (by simp [Entries.get?]))) ?_
  refine render_text (render_field (lookup?_own rfl (by simp [Entries.get?])) ?_)
  refine render_text (render_field (lookup?_own rfl (by simp [Entries.get?])) ?_)
  refine render_text (render_cons (renderNode_given hclient fun _ => render_last _ _) ?_)
  refine render_text (render_field (lookup?_own rfl (by simp [Entries.get?])) ?_)
  refine render_text (render_cons plan.renderNode_options ?_)
  exact render_text (render_field (lookup?_own rfl (by simp [Entries.get?])) (render_last _ _))

end HookPlan

/-- The files of a compiled service, the module first. -/
@[simp] theorem ServiceModule.files_eq (service : ServiceModule) :
    service.files = .ok (⟨modulePath service.ident.className, service.text⟩ ::
      service.hooks.map fun plan => ⟨plan.path, plan.text⟩) := by
  have hhooks : service.hooks.mapM hookFile =
      .ok (service.hooks.map fun plan => ⟨plan.path, plan.text⟩) := by
    refine mapM_eq_ok fun plan _ => ?_
    rw [hookFile, HookPlan.render_eq]
    rfl
  rw [files, hhooks, moduleFile_eq]
  rfl

end ClientLoom
