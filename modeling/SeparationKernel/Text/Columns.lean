/-! Text in columns. Widths are counted in characters; text that is wider is not cut. -/
namespace SeparationKernel.Text

def padRight (width : Nat) (s : String) : String :=
  s ++ .ofList (List.replicate (width - s.length) ' ')

def padLeft (width : Nat) (s : String) : String :=
  .ofList (List.replicate (width - s.length) ' ') ++ s

def unlines (lines : List String) : String := String.join (lines.map (· ++ "\n"))

end SeparationKernel.Text
