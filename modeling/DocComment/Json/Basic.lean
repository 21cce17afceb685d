/-!
# JSON values

Objects keep the order of their members, since messages and encoded records show it.  An integer is
exact and unbounded.  A number with a fraction or an exponent never carries meaning in a
documentation record, so it is kept as it was written.
-/

namespace DocComment

/-- A JSON value. -/
inductive Json where
  | null
  | bool (value : Bool)
  | int (value : Int)
  | real (literal : String)
  | str (value : String)
  | arr (elements : List Json)
  | obj (members : List (String × Json))
deriving Inhabited

namespace Json

/-! ## Members of an object -/

/-- The value of a member, if the list has one of that name. -/
def memberOf (members : List (String × Json)) (name : String) : Option Json :=
  (members.find? fun member => member.1 == name).map Prod.snd

/-- Adds a member.  A name that is already there keeps its place and takes the new value. -/
def setMember (name : String) (value : Json) : List (String × Json) → List (String × Json)
  | [] => [(name, value)]
  | member :: members =>
    if member.1 = name then (name, value) :: members
    else member :: setMember name value members

/-- An object from its members as written: of two members of one name the later one counts. -/
def ofMembers (members : List (String × Json)) : Json :=
  .obj (members.foldl (fun found member => setMember member.1 member.2 found) [])

/-- The value of a member of an object; nothing for any other value. -/
def member? : Json → String → Option Json
  | .obj members, name => memberOf members name
  | _, _ => none

end Json

end DocComment
