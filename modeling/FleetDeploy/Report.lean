/-!
# Reports of errors

Errors are values that name their cause.  A report is what a caller sees of one:
the kind of the error, from the outermost cause to the innermost, and its text.
A cause that is told by another party, such as the file system, has no text of
this library's own.
-/

namespace FleetDeploy

/-- The kind of an error, its causes divided by dots, and its text. -/
structure Report where
  kind : String
  text : Option String
  deriving DecidableEq, Repr

namespace Report

/-- The report of an error without a further cause. -/
def plain (kind text : String) : Report :=
  ⟨kind, some text⟩

/-- The report of an error without a text. -/
def silent (kind : String) : Report :=
  ⟨kind, none⟩

/-- The report of an error that is caused by another: its own kind and the
opening of its text stand in front. -/
def because (kind opening : String) (cause : Report) : Report :=
  ⟨kind ++ "." ++ cause.kind, cause.text.map (opening ++ ·)⟩

end Report

end FleetDeploy
