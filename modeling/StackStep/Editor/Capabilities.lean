import StackStep.Json.Shape

/-!
The shape of what a client says about itself when it starts the service. The service makes
no use of it, but a client that sends something of another shape is refused.
-/

namespace StackStep.Editor

open Json (Shape)

def flags (names : List String) : List (Bytes × Shape) :=
  names.map fun name => (Bytes.ofString name, .boolean)

/-- A record of flags. -/
def flagRecord (names : List String) : Shape := .record (flags names)

/-- A record of flags and other fields. -/
def flagsAnd (names : List String) (others : List (Bytes × Shape)) : Shape :=
  .record (flags names ++ others)

def registration : Shape := flagRecord ["dynamicRegistration"]

def linking : Shape := flagRecord ["dynamicRegistration", "linkSupport"]

/-- A set of values of one shape. -/
def valueSet (item : Shape) : Shape := .record [("valueSet", .list item)]

def properties : Shape := .record [("properties", .list .string)]

def workspaceCapabilities : Shape :=
  flagsAnd ["applyEdit", "workspaceFolders", "configuration"]
    [("workspaceEdit", flagsAnd ["documentChanges", "normalizesLineEndings"]
      [("resourceOperations", .list .string), ("failureHandling", .string),
        ("changeAnnotationSupport", flagRecord ["groupsOnLabel"])]),
      ("didChangeConfiguration", registration),
      ("didChangeWatchedFiles", registration),
      ("symbol", flagsAnd ["dynamicRegistration"]
        [("symbolKind", valueSet .int32), ("tagSupport", valueSet .int32)]),
      ("executeCommand", registration),
      ("semanticTokens", flagRecord ["refreshSupport"]),
      ("codeLens", flagRecord ["refreshSupport"]),
      ("fileOperations", flagRecord ["dynamicRegistration", "didCreate", "willCreate",
        "didRename", "willRename", "didDelete", "willDelete"])]

def completionCapabilities : Shape :=
  flagsAnd ["dynamicRegistration", "contextSupport"]
    [("completionItem", flagsAnd ["snippetSupport", "commitCharactersSupport",
        "deprecatedSupport", "preselectSupport", "insertReplaceSupport"]
      [("documentationFormat", .list .string), ("tagSupport", valueSet .int32),
        ("resolveSupport", properties), ("insertTextModeSupport", valueSet .int32)]),
      ("completionItemKind", valueSet .int32)]

def signatureCapabilities : Shape :=
  flagsAnd ["dynamicRegistration", "contextSupport"]
    [("signatureInformation", flagsAnd ["activeParameterSupport"]
      [("documentationFormat", .list .string),
        ("parameterInformation", flagRecord ["labelOffsetSupport"])])]

def symbolCapabilities : Shape :=
  flagsAnd ["dynamicRegistration", "hierarchicalDocumentSymbolSupport", "labelSupport"]
    [("symbolKind", valueSet .int32), ("tagSupport", valueSet .int32)]

def actionCapabilities : Shape :=
  flagsAnd ["dynamicRegistration", "isPreferredSupport", "disabledSupport", "dataSupport",
      "honorsChangeAnnotations"]
    [("codeActionLiteralSupport", .record [("codeActionKind", valueSet .string)]),
      ("resolveSupport", properties)]

def tokenCapabilities : Shape :=
  flagsAnd ["dynamicRegistration", "overlappingTokenSupport", "multilineTokenSupport"]
    [("requests", .record [("range", .either .boolean (.record [])),
      ("full", .either .boolean (flagRecord ["delta"]))]),
      ("tokenTypes", .list .string), ("tokenModifiers", .list .string),
      ("formats", .list .string)]

def documentCapabilities : Shape :=
  .record
    [("synchronization", flagRecord ["dynamicRegistration", "willSave", "willSaveWaitUntil",
        "didSave"]),
      ("completion", completionCapabilities),
      ("hover", flagsAnd ["dynamicRegistration"] [("contentFormat", .list .string)]),
      ("signatureHelp", signatureCapabilities),
      ("declaration", linking), ("definition", linking), ("typeDefinition", linking),
      ("implementation", linking), ("references", registration),
      ("documentHighlight", registration), ("documentSymbol", symbolCapabilities),
      ("codeAction", actionCapabilities), ("codeLens", registration),
      ("documentLink", flagRecord ["dynamicRegistration", "tooltipSupport"]),
      ("colorProvider", registration), ("formatting", registration),
      ("rangeFormatting", registration), ("onTypeFormatting", registration),
      ("rename", flagsAnd ["dynamicRegistration", "prepareSupport", "honorsChangeAnnotations"]
        [("prepareSupportDefaultBehavior", .int32)]),
      ("publishDiagnostics", flagsAnd ["relatedInformation", "versionSupport",
        "codeDescriptionSupport", "dataSupport"] [("tagSupport", valueSet .int32)]),
      ("foldingRange", flagsAnd ["dynamicRegistration", "lineFoldingOnly"]
        [("rangeLimit", .uint32)]),
      ("selectionRange", registration), ("linkedEditingRange", registration),
      ("callHierarchy", registration), ("semanticTokens", tokenCapabilities),
      ("moniker", registration)]

def clientCapabilities : Shape :=
  .record
    [("workspace", workspaceCapabilities), ("textDocument", documentCapabilities),
      ("window", flagsAnd ["workDoneProgress"]
        [("showMessage", .record
            [("messageActionItem", flagRecord ["additionalPropertiesSupport"])]),
          ("showDocument", flagRecord ["support"])]),
      ("general", .record
        [("regularExpressions", .record [("engine", .string), ("version", .string)]),
          ("markdown", .record [("parser", .string), ("version", .string)])]),
      ("experimental", .any)]

end StackStep.Editor
