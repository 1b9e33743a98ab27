import SetupLint.Component
import SetupLint.Rule.Basic

/-! A setup routine returns its builder closure at once, so it must not be
asynchronous. -/
namespace SetupLint.Rule

/-- The finding for an asynchronous setup routine. -/
def checkAsync (component : Component) : List Diagnostic :=
  match component.setup with
  | none => []
  | some setup =>
    if setup.body.isAsync then
      [{ asyncSetup.finding
          ("`" ++ component.name ++ "." ++ setup.name.text ++ "` must not be async") setup.span with
        labels := [⟨"declared async here", setup.name.span⟩] }]
    else []

end SetupLint.Rule
