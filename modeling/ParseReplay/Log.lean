/-!
# Log records

What a computation reports besides its result: a list of texts, each with a level, in the order in
which they arise.

## Main definitions

* `LogRecord`, `Log`: a report and a list of reports
-/

namespace ParseReplay

/-- The urgency of a report. -/
inductive Level where
  | debug
  | info
  | warn
  | error
deriving DecidableEq

/-- A report. -/
structure LogRecord where
  level : Level
  text : String
deriving DecidableEq

/-- Reports in the order in which they arise. -/
abbrev Log := List LogRecord

namespace LogRecord

/-- A report of the lowest level. -/
def debug (text : String) : LogRecord := ⟨.debug, text⟩

/-- A report of progress. -/
def info (text : String) : LogRecord := ⟨.info, text⟩

/-- A report of something that could be passed over. -/
def warn (text : String) : LogRecord := ⟨.warn, text⟩

/-- A report of something that ends the work. -/
def error (text : String) : LogRecord := ⟨.error, text⟩

end LogRecord

end ParseReplay
