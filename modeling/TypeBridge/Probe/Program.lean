import TypeBridge.Source.Include

/-!
# The probe program

The probe is a program that prints, for every type asked about, one record: its name, sign, numeric
kind and size. `program` is its text. Each type takes one line, `reportLine`, whose name stands once
as a type and once as a text.
-/

namespace TypeBridge.Probe

/-- The includes that every probe needs. -/
def standardIncludes : String :=
  "#include <cstddef>\n#include <cstdint>\n#include <cstdio>\n#include <limits>\n" ++
    "#include <type_traits>\n"

/-- The function that prints the record of one type, and the head of the main function. -/
def reportFunction : String :=
  String.intercalate "\n"
    ["template <typename T>",
     "static void report(char const * type_name, bool last) \x7b",
     "    bool const is_float = std::is_floating_point<T>::value;",
     "    bool const is_integer = std::numeric_limits<T>::is_integer;",
     "",
     "    char const * numeric_kind = is_integer ? \"integer\" : " ++
       "(is_float ? \"float\" : \"other\");",
     "    char const * signage = (is_float || std::numeric_limits<T>::is_signed)",
     "        ? \"signed\"",
     "        : (is_integer ? \"unsigned\" : \"none\");",
     "",
     "    std::printf(",
     "        \"  [\\\"native\\\", \\\"%s\\\", \\\"%s\\\", \\\"%s\\\", %zu]%s\\n\",",
     "        type_name, signage, numeric_kind, sizeof(T), last ? \"\" : \",\"",
     "    );",
     "\x7d",
     "",
     "int main() \x7b",
     "    std::printf(\"[\\n\");",
     ""]

/-- The end of the main function. -/
def programEnd : String :=
  "    std::printf(\"]\\n\");\n    std::fflush(stdout);\n    return 0;\n\x7d\n"

/-- The line that reports one type; after the last record no comma is printed. -/
def reportLine (type : String) (last : Bool) : String :=
  "    report<" ++ type ++ ">(\"" ++ type ++ "\", " ++ (if last then "true" else "false") ++ ");\n"

/-- The lines that report some types. -/
def reportLines : List String → List String
  | [] => []
  | [type] => [reportLine type true]
  | type :: rest => reportLine type false :: reportLines rest

/-- The text of the program, with include lines for the headers as they are given. -/
def programText (includes types : List String) : String :=
  standardIncludes ++ Source.includeLines includes ++ "\n" ++ reportFunction ++
    String.join (reportLines types) ++ programEnd

/-- The program that probes some types under some headers. -/
def program (headers types : List String) : String :=
  programText (headers.map Source.includeTarget) types

end TypeBridge.Probe
