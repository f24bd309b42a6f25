import Stencil.CommandLine.Display

/-!
# Reports

A report is written for a terminal, which sets its parts off from each other by
their style.  Where no terminal is written to, only what it would show of the
report is written.
-/

namespace Stencil.CommandLine

/-- A part of a report, by what it is; the words between the others have no style. -/
inductive Fragment where
  | words (text : String)
  | heading (text : String)
  | literal (text : String)
  | offending (text : String)
  deriving DecidableEq, Repr

namespace Fragment

def styleReset : String := "\x1b[0m"

def styled : Fragment → String
  | .words text => text
  | .heading text => "\x1b[1m\x1b[31m" ++ text ++ styleReset
  | .literal text => "\x1b[1m" ++ text ++ styleReset
  | .offending text => "\x1b[33m" ++ text ++ styleReset

end Fragment

structure Report where
  fragments : List Fragment
  deriving DecidableEq, Repr

namespace Report

def styled (report : Report) : String := String.join (report.fragments.map Fragment.styled)

def shown (report : Report) : String := shownText report.styled

end Report

end Stencil.CommandLine
