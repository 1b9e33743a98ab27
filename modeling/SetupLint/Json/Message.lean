import SetupLint.Json.Decode
import SetupLint.Number.Shortest
import SetupLint.Text.Quoted

/-! What the errors of decoding say. -/
namespace SetupLint.Json

def Found.message : Found → String
  | .null => "null"
  | .bool value => "boolean `" ++ (if value then "true" else "false") ++ "`"
  | .int value => "integer `" ++ toString value ++ "`"
  | .double value => "floating point `" ++ String.ofList value.numeral.render ++ "`"
  | .text value => "string " ++ Text.quoted value
  | .sequence => "sequence"
  | .map => "map"

/-- What an error says. A text that is no JSON has no message of its own. -/
def DecodeError.message : DecodeError → String
  | .malformed => "malformed JSON"
  | .ended => "unexpected end of JSON"
  | .missingField name => "missing field `" ++ name ++ "`"
  | .duplicateField name => "duplicate field `" ++ name ++ "`"
  | .unknownVariant name => "unknown variant `" ++ name ++ "`"
  | .invalidType found => "invalid type: " ++ found.message
  | .invalidValue found => "invalid value: " ++ found.message
  | .invalidLength length => "invalid length " ++ toString length

end SetupLint.Json
