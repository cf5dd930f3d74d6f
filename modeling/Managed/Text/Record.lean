namespace Managed.Text.Record

def fieldTexts (fields : List (String × String)) : List String :=
  fields.map fun field => field.1 ++ ": " ++ field.2

def braced (name : String) (parts : List String) : String :=
  name ++ " \x7b " ++ ", ".intercalate parts ++ " \x7d"

def whole (name : String) (fields : List (String × String)) : String :=
  braced name (fieldTexts fields)

/-- A record with some of its fields; two points stand for the others. -/
def abridged (name : String) (fields : List (String × String)) : String :=
  braced name (fieldTexts fields ++ [".."])

end Managed.Text.Record
