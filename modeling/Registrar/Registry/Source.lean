import Registrar.Naming

/-!
The generated source: the text of a new registry, the text of a new helper, and the four fragments
that one helper adds to a registry: an import line, a field, an accessor and an export.
-/

namespace Registrar.Source

/-- The remark before which accessors are put. -/
def accessorMark : String := "// page-registry: accessors"

/-- What stands for the name in a template. -/
def namePlaceholder : String := "\x7b\x7bname\x7d\x7d"

/-- One step of indentation. -/
def indent : String := "    "

/-- A template with the name put in. -/
def fill (template name : String) : String :=
  String.ofList (Text.replaceAll template.toList namePlaceholder.toList name.toList)

/-- An import of one name. -/
def importLine (name specifier : String) : String :=
  "import \x7b " ++ name ++ " \x7d from '" ++ specifier ++ "';\n"

/-- The import of the context type. -/
def contextImport (config : Config) : String :=
  "import type \x7b " ++ config.contextType ++ " \x7d from '" ++ config.contextModule ++ "';\n"

/-- The text of a new registry. -/
def registry (config : Config) (name : String) : String :=
  match config.registryTemplate with
  | some template => fill template name
  | none =>
    let type := config.contextType
    let context := config.contextField
    contextImport config ++
    "\nexport class " ++ name ++ " \x7b\n" ++
    indent ++ "private static instance: " ++ name ++ ";\n" ++
    indent ++ "private " ++ context ++ "?: " ++ type ++ ";\n" ++
    "\n" ++
    indent ++ "private constructor() \x7b\x7d\n" ++
    "\n" ++
    indent ++ "public static getInstance(): " ++ name ++ " \x7b\n" ++
    indent ++ indent ++ "if (!" ++ name ++ ".instance) \x7b\n" ++
    indent ++ indent ++ indent ++ name ++ ".instance = new " ++ name ++ "();\n" ++
    indent ++ indent ++ "\x7d\n" ++
    indent ++ indent ++ "return " ++ name ++ ".instance;\n" ++
    indent ++ "\x7d\n" ++
    "\n" ++
    indent ++ "public set" ++ String.ofList (Letter.raiseFirst context.toList) ++
      "(" ++ context ++ ": " ++ type ++ "): void \x7b\n" ++
    indent ++ indent ++ "this." ++ context ++ " = " ++ context ++ ";\n" ++
    indent ++ "\x7d\n" ++
    "\n" ++
    indent ++ accessorMark ++ "\n" ++
    "\x7d\n" ++
    "\nexport const get" ++ name ++ " = (): " ++ name ++ " => " ++ name ++ ".getInstance();\n"

/-- The text of a new helper. -/
def helper (config : Config) (name : String) : String :=
  match config.helperTemplate with
  | some template => fill template name
  | none =>
    contextImport config ++
    "\nexport class " ++ name ++ " \x7b\n" ++
    indent ++ "constructor(private readonly " ++ config.contextField ++ "?: " ++
      config.contextType ++ ") \x7b\x7d\n" ++
    "\x7d\n"

/-- The field that keeps a helper. -/
def fieldLine (field className : String) : String :=
  indent ++ "private " ++ field ++ "?: " ++ className ++ ";\n"

/-- The accessor that builds a helper at the first call and hands out the same one later. -/
def accessorBlock (config : Config) (accessor field className : String) : String :=
  let type := config.contextType
  let context := config.contextField
  indent ++ "public " ++ accessor ++ "(" ++ context ++ "?: " ++ type ++ "): " ++ className ++
    " \x7b\n" ++
  indent ++ indent ++ "if (!this." ++ field ++ ") \x7b\n" ++
  indent ++ indent ++ indent ++ "this." ++ field ++ " = new " ++ className ++ "(" ++ context ++
    " ?? this." ++ context ++ ");\n" ++
  indent ++ indent ++ "\x7d\n" ++
  indent ++ indent ++ "return this." ++ field ++ ";\n" ++
  indent ++ "\x7d\n"

/-- The export that forwards to the accessor of the one registry object. -/
def exportLine (config : Config) (accessor className registryClass : String) : String :=
  let context := config.contextField
  "export const " ++ accessor ++ " = (" ++ context ++ "?: " ++ config.contextType ++ "): " ++
    className ++ " => " ++
    registryClass ++ ".getInstance()." ++ accessor ++ "(" ++ context ++ ");\n"

/-- The statement put where a helper is used. -/
def usageLine (indentation variableName accessor : String) : String :=
  indentation ++ "const " ++ variableName ++ " = " ++ accessor ++ "();\n"

end Registrar.Source
