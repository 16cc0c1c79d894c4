import LanguageClient.Failure
import LanguageClient.Number.Reader

/-!
The whole number in a value: a fraction is dropped, and a text is read.
-/

namespace LanguageClient.Value

def toInt : Value → Except Failure Int
  | .int n => .ok n
  | .bool b => .ok (if b then 1 else 0)
  | .float x => match x with
    | .nan => .error .missingNumber
    | .infinite _ => .error .infiniteNumber
    | .finite .. => .ok (x.truncate?.getD 0)
  | .text s => match Number.readInt? s with
    | some n => .ok n
    | none => .error (.notInteger s)
  | v => .error (.notNumeric v.kind)

theorem toInt_int (n : Int) : toInt (.int n) = .ok n := rfl

/-- Yes, spelled in one of four ways, or any value that counts as true. -/
def affirms : Value → Bool
  | .text s => ["1", "true", "yes", "on"].contains (Text.lower (Text.trim s))
  | v => v.truthy

end LanguageClient.Value
