/-!
# Template settings

A template is plain text with directives between a begin mark and an end mark.  The
settings name the two marks and say whether one line break directly after a command
is dropped.

`Config.marks` turns settings into a usable pair of marks, `Marks`, whose fields carry
what the reading of directives relies on, or says what is wrong with them.

**Results.**
* `Config.marks_eq_ok`: usable marks are the marks of the settings.
-/

namespace Stencil

/-- The settings of a template. -/
structure Config where
  /-- The text that opens a directive. -/
  beginMark : String := "["
  /-- The text that closes a directive. -/
  endMark : String := "]"
  /-- Whether one line break directly after a command is dropped. -/
  trimNewline : Bool := true
  deriving DecidableEq, Inhabited

/-- What is wrong with settings. -/
inductive ConfigError where
  | emptyBeginMark
  | emptyEndMark
  | equalMarks (mark : String)
  | endMarkOpensComment
  | custom (text : String)
  deriving DecidableEq

/-- The wording of a settings error. -/
def ConfigError.message : ConfigError → String
  | .emptyBeginMark => "begin_mark must not be empty"
  | .emptyEndMark => "end_mark must not be empty"
  | .equalMarks mark =>
      "begin_mark and end_mark must differ (both are \"" ++ mark ++ "\")"
  | .endMarkOpensComment =>
      "end_mark must not start with '#', it would collide with comments"
  | .custom text => text

/-- A pair of marks between which directives can be told from text. -/
structure Marks where
  /-- The characters of the begin mark. -/
  opening : List Char
  /-- The characters of the end mark. -/
  closing : List Char
  opening_ne_nil : opening ≠ []
  closing_ne_nil : closing ≠ []
  opening_ne_closing : opening ≠ closing
  closing_head : closing.head? ≠ some '#'

/-- The marks of the settings that are used if there are no others. -/
def Marks.brackets : Marks :=
  ⟨['['], [']'], by decide, by decide, by decide, by decide⟩

namespace Config

/-- The marks of the settings, or the first thing that is wrong with them. -/
def marks (config : Config) : Except ConfigError Marks :=
  if hb : config.beginMark.toList = [] then .error .emptyBeginMark
  else if he : config.endMark.toList = [] then .error .emptyEndMark
  else if hd : config.beginMark.toList = config.endMark.toList then
    .error (.equalMarks config.beginMark)
  else if hc : config.endMark.toList.head? = some '#' then .error .endMarkOpensComment
  else .ok ⟨config.beginMark.toList, config.endMark.toList, hb, he, hd, hc⟩

/-- Settings whose marks are usable. -/
def Valid (config : Config) : Prop :=
  ∃ m, config.marks = .ok m

/-- Returns valid settings as they are. -/
def validate (config : Config) : Except ConfigError Config :=
  match config.marks with
  | .ok _ => .ok config
  | .error e => .error e

theorem marks_eq_ok {config : Config} {m : Marks} (h : config.marks = .ok m) :
    m.opening = config.beginMark.toList ∧ m.closing = config.endMark.toList := by
  unfold marks at h
  split at h
  · cases h
  split at h
  · cases h
  split at h
  · cases h
  split at h
  · cases h
  cases h
  exact ⟨rfl, rfl⟩

end Config

end Stencil
