import ClientLoom.Template.Basic

/-!
# Templates of the generated files
-/

namespace ClientLoom.Template

/-- A field of the context. -/
def own (name : String) : Operand := .path { names := [name] }

/-- Shows a field of the context. -/
def field (name : String) : TemplateNode := .value (own name)

/-- A part for a field that holds. -/
def given (name : String) (body : List TemplateNode) : TemplateNode := .when (own name) body none

/-- A part for every item of a field. -/
def forEach (name : String) (body : List TemplateNode) : TemplateNode := .each (own name) body none

/-- The module of a service. -/
def service : Template := [
  .text "import HttpClient from './HttpClient';\n",
  given "top_script" [.text "\n", field "top_script", .text "\n"],
  forEach "declarations" [.text "\n", .value (.path { names := [] }), .text "\n"],
  .text "\nclass ", field "class_name", .text " \x7b\n",
  .text "  private httpClient: HttpClient = new HttpClient(\x7b\n",
  .text "    baseURL: ", field "base_url", .text ",\n",
  .text "    requestHook: (config) => \x7b\n",
  forEach "headers"
    [.text "      config.headers[", field "name", .text "] = ", field "value", .text ";\n"],
  .text "      return config;\n",
  .text "    \x7d,\n",
  .text "  \x7d);\n",
  forEach "methods" [
    .text "\n  async ", field "name", .text "(", field "signature", .text ") \x7b\n",
    given "prelude" [.text "    ", field "prelude", .text "\n"],
    .text "    return ", field "call", .text ";\n",
    .text "  \x7d\n"],
  .text "\x7d\n\nexport const ", field "instance_name",
  .text " = new ", field "class_name", .text "();\n"]

/-- The module of a hook. -/
def hook : Template := [
  .text "import \x7b ", field "query_imports", .text " \x7d from '@tanstack/react-query';\n",
  given "service_imports" [
    .text "import \x7b ", field "service_imports",
    .text " \x7d from '../../", field "class_name", .text "';\n"],
  given "default_script" [.text "\n", field "default_script", .text "\n"],
  .text "\nconst ", field "hook_name", .text " = (", field "signature", .text ") => \x7b\n",
  given "query_client" [.text "  const queryClient = useQueryClient();\n"],
  .text "  return ", field "hook_fn", .text "(\x7b\n",
  forEach "options" [.text "    ", field "name", .text ": ", field "value", .text ",\n"],
  .text "  \x7d);\n\x7d;\n\nexport default ", field "hook_name", .text ";\n"]

/-- The lines of the client that all services use. -/
def httpClientLines : List String := [
  "import axios, \x7b AxiosInstance, InternalAxiosRequestConfig \x7d from 'axios';",
  "",
  "type RequestHook = (",
  "  config: InternalAxiosRequestConfig,",
  ") => InternalAxiosRequestConfig | Promise<InternalAxiosRequestConfig>;",
  "",
  "interface HttpClientProps \x7b",
  "  baseURL: string;",
  "  requestHook?: RequestHook | null;",
  "\x7d",
  "",
  "export default class HttpClient \x7b",
  "  instance: AxiosInstance;",
  "",
  "  constructor(\x7b baseURL, requestHook \x7d: HttpClientProps) \x7b",
  "    this.instance = axios.create(\x7b baseURL \x7d);",
  "",
  "    if (requestHook) \x7b",
  "      this.instance.interceptors.request.use(requestHook);",
  "    \x7d",
  "  \x7d",
  "",
  "  static parseCookie(cookie: string): Record<string, any> \x7b",
  "    return Object.fromEntries(",
  "      cookie",
  "        .split('; ')",
  "        .filter((entry) => entry.length > 0)",
  "        .map((entry) => \x7b",
  "          const index = entry.indexOf('=');",
  "          const key = index < 0 ? entry : entry.slice(0, index);",
  "          let value: any = index < 0 ? '' : entry.slice(index + 1);",
  "          try \x7b",
  "            value = JSON.parse(decodeURIComponent(value));",
  "          \x7d catch \x7b",
  "            // keep the raw cookie text",
  "          \x7d",
  "          return [key, value];",
  "        \x7d),",
  "    );",
  "  \x7d",
  "",
  "  static getFromCookie(key: string) \x7b",
  "    const cookie = typeof document === 'undefined' ? '' : document.cookie;",
  "    return HttpClient.parseCookie(cookie)[key];",
  "  \x7d",
  "",
  "  static getFromLocalStorage(key: string) \x7b",
  "    return typeof localStorage === 'undefined' ? undefined : localStorage.getItem(key);",
  "  \x7d",
  "",
  "  static getFromSessionStorage(key: string) \x7b",
  "    return typeof sessionStorage === 'undefined' ? undefined : sessionStorage.getItem(key);",
  "  \x7d",
  "",
  "  async get<T = any>(url: string, params?: Record<string, any>) \x7b",
  "    return this.instance.get<T>(url, \x7b params \x7d).then((res) => res.data);",
  "  \x7d",
  "",
  "  async delete<T = any>(url: string, params?: Record<string, any>) \x7b",
  "    return this.instance.delete<T>(url, \x7b params \x7d).then((res) => res.data);",
  "  \x7d",
  "",
  "  async post<T = any, D = any>(url: string, params?: Record<string, any>, data?: D) \x7b",
  "    return this.instance.post<T>(url, data, \x7b params \x7d).then((res) => res.data);",
  "  \x7d",
  "",
  "  async put<T = any, D = any>(url: string, params?: Record<string, any>, data?: D) \x7b",
  "    return this.instance.put<T>(url, data, \x7b params \x7d).then((res) => res.data);",
  "  \x7d",
  "",
  "  async patch<T = any, D = any>(url: string, params?: Record<string, any>, data?: D) \x7b",
  "    return this.instance.patch<T>(url, data, \x7b params \x7d).then((res) => res.data);",
  "  \x7d",
  "\x7d"]

/-- The client that all services use. -/
def httpClient : Template :=
  [.text (String.join (httpClientLines.map (· ++ "\n")))]

/-- Templates by name. -/
structure Library where
  templates : Entries Template

namespace Library

/-- The library of the generated files. -/
def builtin : Library :=
  ⟨[("service", service), ("hook", hook), ("http-client", httpClient)]⟩

/-- Renders the template of a name. -/
def render (library : Library) (name : String) (context : Json) : Outcome String :=
  match library.templates.get? name with
  | some template => Template.render { root := context } template
  | none => .error .failedRendering

end Library

end ClientLoom.Template
