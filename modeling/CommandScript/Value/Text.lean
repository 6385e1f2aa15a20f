import CommandScript.Number.Text
import CommandScript.Value.Basic

/-!
# Values as text

How every value is shown but a component, whose text depends on what it holds at that moment.
-/

set_option autoImplicit false

namespace CommandScript

namespace Value

mutual

def textWith (component : ComponentId → String) : Value → String
  | .null => "null"
  | .bool true => "true"
  | .bool false => "false"
  | .int n => Number.integerText n.toInt
  | .float x => Number.displayText x.toFloat
  | .text s => s
  | .composite kind fields =>
    kind.name ++ "(" ++ ", ".intercalate (textsWith component fields) ++ ")"
  | .reference name => "$" ++ name
  | .component id => component id

def textsWith (component : ComponentId → String) : List Value → List String
  | [] => []
  | field :: rest => textWith component field :: textsWith component rest

end

end Value

end CommandScript
