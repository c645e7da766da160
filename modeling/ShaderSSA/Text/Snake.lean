/-!
# Names in snake case
-/

namespace ShaderSSA.Text

/-- Each ASCII capital is lowered and, unless it is the first character, follows an underscore. -/
def snakeChars : Bool → List Char → List Char
  | _, [] => []
  | first, c :: cs =>
    if c.isUpper then
      if first then c.toLower :: snakeChars false cs else '_' :: c.toLower :: snakeChars false cs
    else c :: snakeChars false cs

def snakeCase (name : String) : String := String.ofList (snakeChars true name.toList)

end ShaderSSA.Text
