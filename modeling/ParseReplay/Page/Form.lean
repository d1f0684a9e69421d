import ParseReplay.Log
import ParseReplay.Source

/-!
# The input form

Two texts, a trace and an automaton, are submitted together. A refused submission leaves what is
shown alone and shows its objection, which the next accepted one removes.

## Main definitions

* `Form`, `Form.submit`: the shown objection, and a submission
* `sampleTrace`, `sampleAutomaton`: the texts that the form starts with
-/

namespace ParseReplay

/-- The trace text that the form starts with. -/
def sampleTrace : String :=
"\x7b
  \"string\": \"aboba\",
  \"actions\": [
    \x7b \"type\": \"shift\" \x7d,
    \x7b \"type\": \"shift\" \x7d,
    \x7b \"type\": \"shift\" \x7d,
    \x7b \"type\": \"reduce\", \"to\": \x7b \"symbol\": \"<B>\", \"size\": 2 \x7d \x7d,
    \x7b \"type\": \"shift\" \x7d,
    \x7b \"type\": \"shift\" \x7d,
    \x7b \"type\": \"reduce\", \"to\": \x7b \"symbol\": \"<A>\", \"size\": 4 \x7d \x7d,
    \x7b \"type\": \"finish\", \"result\": 1 \x7d
  ]
\x7d"

/-- The automaton text that the form starts with. -/
def sampleAutomaton : String :=
  "[[1, 2], [1, 3, 4], [5, 6], [], [6, 7], [], [1, 8, 9], [], [], [6, 10], []]"

/-- The state of the form: the objection that it shows. -/
structure Form where
  objection : Option Refusal

namespace Form

/-- A form that shows no objection. -/
def clean : Form := ⟨none⟩

/-- The text of the objection that the form shows. -/
def message (form : Form) : Option String :=
  form.objection.map Refusal.report

/-- What a submission leaves: the form, the accepted source, and what is reported. -/
structure Submission where
  form : Form
  source : Option Source
  log : Log

/-- Submit a trace text and an automaton text. -/
def submit (trace automaton : String) : Submission :=
  match Source.ofJson trace automaton with
  | .ok source => ⟨clean, some source, []⟩
  | .error refusal =>
    let form : Form := ⟨some refusal⟩
    ⟨form, none, [.warn ("rejected input: " ++ form.message.getD "")]⟩

end Form

end ParseReplay
