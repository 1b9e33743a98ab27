/-! The schema of configurations, for editors. -/
namespace SetupLint.Config

/-- The line for a property that holds names. -/
def namesLine (property : String) : String :=
  "            \"" ++ property ++ "\": \x7b \"type\": \"array\", " ++
    "\"items\": \x7b \"type\": \"string\" \x7d \x7d,"

def schemaLines : List String :=
  ["\x7b",
   "  \"$schema\": \"http://json-schema.org/draft-07/schema#\",",
   "  \"title\": \"Gesso Configuration\",",
   "  \"description\": \"Configuration file for gesso - setup-time linter for " ++
     "composition-style components\",",
   "  \"type\": \"object\",",
   "  \"properties\": \x7b",
   "    \"$schema\": \x7b",
   "      \"type\": \"string\",",
   "      \"description\": \"JSON Schema reference for editor autocompletion\"",
   "    \x7d,",
   "    \"lint\": \x7b",
   "      \"type\": \"object\",",
   "      \"description\": \"Lint configuration\",",
   "      \"properties\": \x7b",
   "        \"preset\": \x7b",
   "          \"type\": \"string\",",
   "          \"enum\": [\"recommended\", \"essential\"],",
   "          \"default\": \"recommended\",",
   "          \"description\": \"Built-in rule set. \\\"essential\\\" contains only " ++
     "the rules that report errors.\"",
   "        \x7d,",
   "        \"rules\": \x7b",
   "          \"type\": \"object\",",
   "          \"description\": \"Enable (true) or disable (false) rules by code, " ++
     "on top of the preset\",",
   "          \"propertyNames\": \x7b",
   "            \"enum\": [",
   "              \"no-conditional-composition\",",
   "              \"no-async-setup\",",
   "              \"ensure-reactive-props\",",
   "              \"controller-lifecycle\",",
   "              \"no-logic-in-builder\",",
   "              \"no-mutable-fields\",",
   "              \"shallow-reactivity\",",
   "              \"provide-inject-type-match\"",
   "            ]",
   "          \x7d,",
   "          \"additionalProperties\": \x7b \"type\": \"boolean\" \x7d",
   "        \x7d,",
   "        \"catalogs\": \x7b",
   "          \"type\": \"object\",",
   "          \"description\": \"Names added to the built-in catalogs\",",
   "          \"properties\": \x7b",
   namesLine "compositionPrimitives",
   namesLine "disposablePrefixes",
   namesLine "mutatingMethods",
   namesLine "primitiveTypes",
   namesLine "wrapperTypes",
   namesLine "resourceKeywords",
   "            \"vocabulary\": \x7b",
   "              \"type\": \"object\",",
   "              \"description\": \"Replaces the framework vocabulary (base class, " ++
     "setup method, value accessor, ...)\"",
   "            \x7d",
   "          \x7d,",
   "          \"additionalProperties\": false",
   "        \x7d",
   "      \x7d,",
   "      \"additionalProperties\": false",
   "    \x7d",
   "  \x7d,",
   "  \"additionalProperties\": false",
   "\x7d"]

def schemaText : String := "\n".intercalate schemaLines

end SetupLint.Config
