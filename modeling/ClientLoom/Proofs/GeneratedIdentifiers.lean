import ClientLoom.Proofs.CompiledNames
import ClientLoom.Proofs.FileText

/-!
# Identifiers of the generated code

A service module declares its class, the instance, a method for every endpoint and the types, and a
hook file declares its function.  The keys of examples lose what no identifier has on their way into
the name of a type.  The key of the service and the names of endpoints do not: a method has the name
of its endpoint as it is, and the other names have the Pascal case of the key or of the name.
-/

namespace ClientLoom

open Text (isIdentifier isIdentifierChar isIdentifierChars pascalCase toList_pascalCase)

namespace ServiceIdent

/-- A class has an identifier as its name exactly if the Pascal case of the key is empty or one. -/
theorem isIdentifier_className_iff (key : String) :
    isIdentifier (ofKey key).className = true ↔
      pascalCase key = "" ∨ isIdentifier (pascalCase key) = true := by
  rw [isIdentifier, isIdentifier, toList_className, toList_pascalCase, ← String.toList_eq_nil_iff,
    toList_pascalCase]
  cases Text.pascalChars key.toList with
  | nil => decide
  | cons c rest =>
      have hservice : "Service".toList.all isIdentifierChar = true := by decide
      simp only [isIdentifierChars, List.cons_append, List.all_append, hservice, Bool.and_true,
        reduceCtorEq, false_or]

/-- The instance begins with a letter where the class does: the Pascal case of a key never begins
with the one character that camel case would drop. -/
theorem isIdentifier_instanceName {key : String} (h : isIdentifier (ofKey key).className = true) :
    isIdentifier (ofKey key).instanceName = true := by
  have hchars := Text.identifierChars_camelChars h (head?_className_ne key).2
  simpa [isIdentifier, ofKey, Text.camelCase] using hchars

end ServiceIdent

namespace EndpointSpec

variable {endpoint : EndpointSpec}

theorem identifierChar_pascalCase (h : isIdentifier endpoint.name = true) :
    ∀ c ∈ (pascalCase endpoint.name).toList, isIdentifierChar c = true := by
  rw [toList_pascalCase]
  exact Text.identifierChar_pascalChars (Text.all_of_isIdentifierChars h)

theorem isIdentifier_of_extends (h : isIdentifier endpoint.name = true) {role name : String}
    (hrole : role ∈ endpoint.roles) (hname : Extends (endpoint.typeName role) name) :
    isIdentifier name = true := by
  obtain ⟨suffix, rfl, hsuffix⟩ := hname
  have hroleChars : ∀ c ∈ role.toList, isIdentifierChar c = true := by
    have hroles : ∀ role ∈ ["Params", "Body", "Response"],
        role.toList.all isIdentifierChar = true := by decide
    exact List.all_eq_true.1 (hroles role (endpoint.roles_subset hrole))
  have hstart : isIdentifierChars "T".toList = true := by decide
  have hchars := Text.identifierChars_append (Text.identifierChars_append
    (Text.identifierChars_append hstart (identifierChar_pascalCase h)) hroleChars) hsuffix
  simpa [isIdentifier, typeName] using hchars

theorem isIdentifier_hookName (h : isIdentifier endpoint.name = true) {name : String}
    (hname : endpoint.hookName? = some name) : isIdentifier name = true := by
  obtain ⟨hook, stem, -, hstem, rfl⟩ := hookName?_eq_some_iff.1 hname
  have hstemChars : isIdentifierChars stem.toList = true := by
    cases hook with
    | none => cases hstem
    | query options | infinite options | mutation options =>
        obtain rfl := Option.some.inj hstem
        decide
  have hchars := Text.identifierChars_append hstemChars (identifierChar_pascalCase h)
  simpa [isIdentifier] using hchars

end EndpointSpec

namespace ServiceModule

/-! ## Where names are declared -/

/-- The names that the files of a service declare, each with the keyword in front of it: the class,
the instance, the methods, the types and the functions of hook files. -/
def declaring (service : ServiceModule) : List (String × String) :=
  [("class ", service.ident.className), ("export const ", service.ident.instanceName)] ++
    (service.endpoints.map fun endpoint => ("async ", endpoint.request.name)) ++
    (service.declarations.map fun decl => ("export type ", decl.name)) ++
    service.hooks.map fun plan => ("const ", plan.hookName)

/-- One of the files has the keyword with the name behind it. -/
def DeclaredIn (files : List GeneratedFile) (entry : String × String) : Prop :=
  ∃ file ∈ files, (entry.1 ++ entry.2).toList <:+: file.content.toList

/-- A keyword and a name stand at the front of a text. -/
theorem declares_front (keyword name after : String) :
    (keyword ++ name).toList <:+: (keyword ++ (name ++ after)).toList := by
  rw [← String.append_assoc, String.toList_append (s := keyword ++ name)]
  exact (List.prefix_append _ _).isInfix

theorem infix_behind {part text : String} (before : String) (h : part.toList <:+: text.toList) :
    part.toList <:+: (before ++ text).toList := by
  rw [String.toList_append]
  exact h.trans (List.suffix_append _ _).isInfix

theorem declText_declares (decl : TypeDecl) :
    ("export type " ++ decl.name).toList <:+: (declText decl).toList := by
  unfold declText TypeDecl.render
  simp only [String.append_assoc]
  exact infix_behind _ (declares_front _ _ _)

theorem exportText_declares (ident : ServiceIdent) :
    ("export const " ++ ident.instanceName).toList <:+: (exportText ident).toList := by
  unfold exportText
  simp only [String.append_assoc]
  exact declares_front _ _ _

theorem text_declares_class (service : ServiceModule) :
    ("class " ++ service.ident.className).toList <:+: service.text.toList := by
  have hkeyword : ("\nclass " : String) = "\n" ++ "class " := rfl
  unfold text classText
  rw [hkeyword]
  simp only [String.append_assoc]
  exact infix_behind _ (infix_behind _ (declares_front _ _ _))

theorem text_declares_method {service : ServiceModule} {endpoint : CompiledEndpoint}
    (h : endpoint ∈ service.endpoints) :
    ("async " ++ endpoint.request.name).toList <:+: service.text.toList := by
  have hkeyword : ("\n  async " : String) = "\n  " ++ "async " := rfl
  have hmethod : ("async " ++ endpoint.request.name).toList <:+:
      (methodText endpoint.request).toList := by
    unfold methodText
    rw [hkeyword]
    simp only [String.append_assoc]
    exact infix_behind _ (declares_front _ _ _)
  have hmethods : (methodText endpoint.request).toList <:+:
      (String.join (service.endpoints.map fun endpoint => methodText endpoint.request)).toList := by
    obtain ⟨front, back, hsplit⟩ := List.append_of_mem h
    refine ⟨(String.join (front.map fun endpoint => methodText endpoint.request)).toList,
      (String.join (back.map fun endpoint => methodText endpoint.request)).toList, ?_⟩
    rw [hsplit]
    simp [String.toList_join]
  have hclass : (String.join (service.endpoints.map fun endpoint =>
      methodText endpoint.request)).toList <:+: service.classText.toList := by
    unfold classText
    rw [String.toList_append, String.toList_append]
    exact List.infix_append _ _ _
  have htext : service.classText.toList <:+: service.text.toList := by
    rw [text, String.toList_append, String.toList_append]
    exact List.infix_append _ _ _
  exact ((hmethod.trans hmethods).trans hclass).trans htext

theorem hookText_declares (plan : HookPlan) :
    ("const " ++ plan.hookName).toList <:+: plan.text.toList := by
  have hkeyword : ("\nconst " : String) = "\n" ++ "const " := rfl
  unfold HookPlan.text
  rw [hkeyword]
  simp only [String.append_assoc]
  iterate 5 refine infix_behind _ ?_
  exact infix_behind _ (declares_front _ _ _)

/-- Every name that a service declares stands behind its keyword in one of the files. -/
theorem declaring_in_files (service : ServiceModule) :
    ∃ files, service.files = .ok files ∧ ∀ entry ∈ service.declaring, DeclaredIn files entry := by
  refine ⟨_, service.files_eq, ?_⟩
  simp only [declaring, List.forall_mem_append, List.forall_mem_cons, List.forall_mem_map]
  have hmodule : ∀ entry : String × String, (entry.1 ++ entry.2).toList <:+: service.text.toList →
      DeclaredIn (⟨modulePath service.ident.className, service.text⟩ ::
        service.hooks.map fun plan => ⟨plan.path, plan.text⟩) entry :=
    fun entry hentry => ⟨_, List.mem_cons_self, hentry⟩
  refine ⟨⟨⟨⟨hmodule _ service.text_declares_class, hmodule _ ?_, by simp⟩, ?_⟩, ?_⟩, ?_⟩
  · exact (exportText_declares service.ident).trans service.exportText_infix
  · exact fun endpoint hendpoint => hmodule _ (text_declares_method hendpoint)
  · intro decl hdecl
    have htext := declText_infix hdecl
    exact hmodule _ ((declText_declares decl).trans htext)
  · exact fun plan hplan =>
      ⟨_, List.mem_cons_of_mem _ (List.mem_map_of_mem hplan), hookText_declares plan⟩

/-! ## Identifiers -/

section

variable {name : String} {spec : ServiceSpec} {service : ServiceModule}

theorem isIdentifier_type (h : compile name spec = .ok service)
    (hnames : ∀ endpoint ∈ spec.endpoints, isIdentifier endpoint.name = true) {decl : TypeDecl}
    (hdecl : decl ∈ service.declarations) : isIdentifier decl.name = true := by
  obtain ⟨compiled, hmem, hdecl⟩ := List.mem_flatMap.1 hdecl
  obtain ⟨endpoint, hendpoint, hfrom⟩ := exists_compiledFrom h hmem
  obtain ⟨role, hrole, hextends⟩ := hfrom.extends_typeName hdecl
  exact EndpointSpec.isIdentifier_of_extends (hnames endpoint hendpoint) hrole hextends

theorem isIdentifier_hook (h : compile name spec = .ok service)
    (hnames : ∀ endpoint ∈ spec.endpoints, isIdentifier endpoint.name = true) {plan : HookPlan}
    (hplan : plan ∈ service.hooks) : isIdentifier plan.hookName = true := by
  obtain ⟨compiled, hmem, hhook⟩ := List.mem_filterMap.1 hplan
  obtain ⟨endpoint, hendpoint, hfrom⟩ := exists_compiledFrom h hmem
  have hplans := HookPlan.map_names_build _ (Request.name_of_build hfrom.request) hfrom.hook
  rw [hhook] at hplans
  obtain ⟨hookName, hhookName, hsame⟩ := Option.map_eq_some_iff.1 hplans.symm
  rw [← (Prod.mk.inj hsame).2]
  exact EndpointSpec.isIdentifier_hookName (hnames endpoint hendpoint) hhookName

/-- The methods of a service have the names of its endpoints. -/
theorem isIdentifier_methods_iff (h : compile name spec = .ok service) :
    (∀ compiled ∈ service.endpoints, isIdentifier compiled.request.name = true) ↔
      ∀ endpoint ∈ spec.endpoints, isIdentifier endpoint.name = true := by
  constructor
  · intro hmethods endpoint hendpoint
    obtain ⟨compiled, hmem, hfrom⟩ := exists_of_forall₂ (forall₂_compiledFrom h).2 hendpoint
    rw [← Request.name_of_build hfrom.request]
    exact hmethods compiled hmem
  · intro hnames compiled hmem
    obtain ⟨endpoint, hendpoint, hfrom⟩ := exists_compiledFrom h hmem
    rw [Request.name_of_build hfrom.request]
    exact hnames endpoint hendpoint

/-- The files of a service that compiles declare names behind keywords, and all of these are
identifiers exactly if the Pascal case of the key is empty or an identifier and the names of all
endpoints are identifiers, whatever the keys of the examples are. -/
theorem declaring_identifiers_iff (h : compile name spec = .ok service) :
    (∃ files, service.files = .ok files ∧
        ∀ entry ∈ service.declaring, DeclaredIn files entry) ∧
      ((∀ entry ∈ service.declaring, isIdentifier entry.2 = true) ↔
        (pascalCase name = "" ∨ isIdentifier (pascalCase name) = true) ∧
          ∀ endpoint ∈ spec.endpoints, isIdentifier endpoint.name = true) := by
  refine ⟨service.declaring_in_files, ?_⟩
  have hident := (forall₂_compiledFrom h).1
  rw [← ServiceIdent.isIdentifier_className_iff, ← hident]
  simp only [declaring, List.forall_mem_append, List.forall_mem_cons, List.forall_mem_map]
  constructor
  · rintro ⟨⟨⟨⟨hclass, -⟩, hmethods⟩, -⟩, -⟩
    exact ⟨hclass, (isIdentifier_methods_iff h).1 hmethods⟩
  · rintro ⟨hclass, hnames⟩
    have hinstance : isIdentifier service.ident.instanceName = true := by
      rw [hident] at hclass ⊢
      exact ServiceIdent.isIdentifier_instanceName hclass
    refine ⟨⟨⟨⟨hclass, hinstance, by simp⟩, (isIdentifier_methods_iff h).2 hnames⟩, ?_⟩, ?_⟩
    · exact fun decl hdecl => isIdentifier_type h hnames hdecl
    · exact fun plan hplan => isIdentifier_hook h hnames hplan

end

/-- An example whose keys are no identifiers, in a service whose key is none. -/
def dashedKeys : ServiceSpec :=
  { baseUrl := "/"
    endpoints := [
      { method := .get, name := "get_$1", path := "/", useQuery := some (.enabled true),
        response := some (.object [("x-id", .object [("1.", .array [.object []])])]) }] }

theorem declaring_identifiers_iff_dashedKeys :
    ∃ service, compile "my-todo list" dashedKeys = .ok service ∧
      service.declaring = [("class ", "MyTodoListService"), ("export const ", "myTodoListService"),
        ("async ", "get_$1"), ("export type ", "TGet$1Response"),
        ("export type ", "TGet$1ResponseXId"), ("export type ", "TGet$1ResponseXId1Item"),
        ("const ", "useGet$1")] ∧
      ∀ entry ∈ service.declaring, isIdentifier entry.2 = true := by
  have hdeclaring : (compile "my-todo list" dashedKeys).toOption.map declaring =
      some [("class ", "MyTodoListService"), ("export const ", "myTodoListService"),
        ("async ", "get_$1"), ("export type ", "TGet$1Response"),
        ("export type ", "TGet$1ResponseXId"), ("export type ", "TGet$1ResponseXId1Item"),
        ("const ", "useGet$1")] := by
    decide +kernel
  obtain ⟨service, hservice, hnames⟩ := exists_of_toOption hdeclaring
  refine ⟨service, hservice, hnames, (declaring_identifiers_iff hservice).2.2 ⟨?_, ?_⟩⟩
  · decide +kernel
  · decide +kernel

/-- A service compiles that has a method whose name is no identifier. -/
def dashedName : ServiceSpec :=
  { baseUrl := "/", endpoints := [{ method := .get, name := "get-todo", path := "/todo" }] }

theorem declared_method_no_identifier :
    ¬ ∀ (name : String) (spec : ServiceSpec) (service : ServiceModule),
      compile name spec = .ok service →
        ∀ entry ∈ service.declaring, isIdentifier entry.2 = true := by
  intro hall
  have hdeclaring : (compile "todo" dashedName).toOption.map declaring =
      some [("class ", "TodoService"), ("export const ", "todoService"),
        ("async ", "get-todo")] := by
    decide +kernel
  obtain ⟨service, hservice, hnames⟩ := exists_of_toOption hdeclaring
  have hmethod := hall "todo" dashedName service hservice ("async ", "get-todo") (by simp [hnames])
  exact absurd hmethod (by decide)

end ServiceModule

end ClientLoom
