import AdaptiveArith.Failure.Basic

/-!
# Reports of failures

A report shows a failure on a terminal: its code, its message behind a cross, the
message of the error behind it at the end of an arrow, and the advice if there is
any. In colour, the code, the cross and the arrow are red and the mark of the
advice is cyan. A message is shown without the spaces at its end.
-/

namespace AdaptiveArith.Failure

/-- How a report marks its parts. -/
inductive ReportStyle
  | plain
  | coloured
  deriving DecidableEq

namespace ReportStyle

/-- The text in a colour, given by its number. -/
def paint (style : ReportStyle) (colour : Nat) (text : String) : String :=
  match style with
  | plain => text
  | coloured => "\x1b[" ++ toString colour ++ "m" ++ text ++ "\x1b[0m"

/-- The text in red. -/
def red (style : ReportStyle) (text : String) : String := style.paint 31 text

/-- The text in cyan. -/
def cyan (style : ReportStyle) (text : String) : String := style.paint 36 text

end ReportStyle

/-- A message as it is shown, without the spaces at its end. -/
def shown (message : String) : String :=
  String.ofList (message.toList.reverse.dropWhile (· == ' ')).reverse

variable (f : Failure) (style : ReportStyle)

/-- The lines of a report. -/
def reportLines : List String :=
  [style.red f.diagnosticCode, "", "  " ++ style.red "×" ++ " " ++ shown f.message,
    style.red "  ╰─▶ " ++ shown f.cause] ++
    (f.help?.map fun help => style.cyan "  help: " ++ help).toList

/-- The report of a failure. -/
def report : String := String.join ((f.reportLines style).map (· ++ "\n"))

/-- Writes the coloured report by the given means. -/
def writeReport {m : Type → Type} (write : String → m Unit) : m Unit := write (f.report .coloured)

end AdaptiveArith.Failure
