import SeparationKernel.Libraries
import SeparationKernel.Text.Columns
import SeparationKernel.Text.EditDistance
import SeparationKernel.Toml

/-! Libraries to run the commands with. -/
namespace SeparationKernel.Libraries

/-- Lines after the first are indented as far as its text. -/
def indented (lead : String) (text : String) : String :=
  lead ++ ("\n" ++ .ofList (List.replicate lead.length ' ')).intercalate (text.splitOn "\n")

/-- A single cause is only indented. Several are numbered. -/
def causeLines : List String → List String
  | [] => []
  | [cause] => [indented "    " cause]
  | causes => causes.zipIdx.map fun (cause, i) =>
      indented (Text.padLeft 5 (toString i) ++ ": ") cause

def standIn : Libraries where
  parse := Toml.read?
  complaint _ := "not a configuration"
  distance a b := Text.editDistance a.toList b.toList
  report f :=
    "\n".intercalate
      (f.message :: if f.causes.isEmpty then [] else "" :: "Caused by:" :: causeLines f.causes)

end SeparationKernel.Libraries
