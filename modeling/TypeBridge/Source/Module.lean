import TypeBridge.Source.Include

/-!
# Modules and headers as text

A module's source holds includes, structures, variables, functions and, in one block with C linkage,
its interfaces. Its header holds the structures and the declarations of the interfaces.
-/

namespace TypeBridge.Source

/-- The parts of a module's source, each a finished text. -/
structure ModuleParts where
  includes : List String
  structures : List String
  globals : List String
  functions : List String
  interfaces : List String

/-- The parts of a module's header, each a finished text. -/
structure HeaderParts where
  includes : List String
  structures : List String
  interfaces : List String

/-- Some texts, each with an ending. -/
def joinEach (ending : String) (texts : List String) : String :=
  String.join (texts.map (· ++ ending))

/-- The line that opens the block with C linkage. -/
def linkageStart : String := "extern \"C\" \x7b\n"

/-- The source of a module. -/
def moduleText (parts : ModuleParts) : String :=
  includeLines parts.includes ++ "\n" ++ joinEach "\n\n" parts.structures ++
    joinEach "\n" parts.globals ++ "\n" ++ joinEach "\n\n" parts.functions ++ linkageStart ++
    joinEach "\n" (parts.interfaces.map ("\n" ++ ·)) ++ "\n\x7d\n"

/-- The header of a module. -/
def headerText (parts : HeaderParts) : String :=
  "#pragma once\n" ++ includeLines parts.includes ++ "\n" ++ joinEach "\n\n" parts.structures ++
    linkageStart ++ joinEach ";\n" parts.interfaces ++ "\x7d\n"

end TypeBridge.Source
