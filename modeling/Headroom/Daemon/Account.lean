import Headroom.Json.Value
import Headroom.Scaling.Controller

/-!
The account of a reconciliation as JSON.
-/

namespace Headroom.Scaling

open Json (Value)

def stringsValue (texts : List String) : Value := .array (texts.map .string)

/-- An outcome as an object that names its kind first. -/
def Outcome.toValue : Outcome → Value
  | .grown uncordoned added => .object [
    ("outcome", .string "grown"),
    ("uncordoned", stringsValue uncordoned),
    ("added", .number added)]
  | .shrunk cordoned => .object [
    ("outcome", .string "shrunk"),
    ("cordoned", stringsValue cordoned)]
  | .unchanged => .object [("outcome", .string "unchanged")]

def Report.toValue (report : Report) : Value := .object [
  ("available_blocks", .number report.available),
  ("target_buffer", .number report.target),
  ("outcome", report.outcome.toValue),
  ("deleted", stringsValue report.deleted)]

end Headroom.Scaling
