import ElmDiagnostics.QuickFix

/-!
Contract: what is written to the client.

Owns: the client's form of diagnostics, code actions and the message that publishes a list.
-/

set_option autoImplicit false

namespace ElmDiagnostics.Client

/-- The number of a severity. -/
def severityNumber : Severity → Int
  | .error => 1
  | .warning => 2
  | .information => 3
  | .hint => 4

/-- The number of a tag. -/
def tagNumber : Tag → Int
  | .unnecessary => 1
  | .deprecated => 2

/-- A diagnostic as the client reads it; empty tags and missing data are left out. -/
def diagnosticJson (diagnostic : Diagnostic) : Json :=
  let data := diagnostic.data.toList.map fun data => ("data", data)
  let tags :=
    if diagnostic.tags.isEmpty then []
    else [("tags", Json.array (diagnostic.tags.map fun tag => .integer (tagNumber tag)))]
  .object ([("code", .string diagnostic.code)] ++ data ++
    [("message", .string diagnostic.message), ("range", QuickFix.rangeJson diagnostic.range),
      ("severity", .integer (severityNumber diagnostic.severity)),
      ("source", .string diagnostic.source)] ++ tags)

/-- A code action as the client reads it. -/
def actionJson (action : CodeAction) : Json :=
  let changes := action.changes.map fun change =>
    (change.1.text, Json.array (change.2.map QuickFix.editJson))
  .object [("diagnostics", .array (action.diagnostics.map diagnosticJson)),
    ("edit", .object [("changes", .object changes)]), ("isPreferred", .bool action.isPreferred),
    ("kind", .string "quickfix"), ("title", .string action.title)]

/-- The message that makes a list all the client shows for a file. -/
def publishMessage (uri : Uri) (diagnostics : List Diagnostic) : Json :=
  .object [("jsonrpc", .string "2.0"), ("method", .string "textDocument/publishDiagnostics"),
    ("params", .object [("diagnostics", .array (diagnostics.map diagnosticJson)),
      ("uri", .string uri.text)])]

end ElmDiagnostics.Client
