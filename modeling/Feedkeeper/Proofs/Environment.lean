import Feedkeeper.Settings.EnvFile
import Mathlib.Data.List.Basic

/-!
# Effective values

A variable's *effective* value is its text in the process if that is valid, else what the first line
of the environment file assigns to it that stands before all bad lines, else nothing
(`Environment.Effective`). It is what the variable comes to once the file is loaded, by any loader
that does what is relied on here (`Dotenv.Loads`, `Environment.effective_iff`). The loader of plain
files is one (`EnvFile.loads`).
-/

namespace Feedkeeper

/-! ## Loaders -/

namespace Dotenv

/-- One of the lines assigns the text to the variable, and none before it is bad or assigns to the
variable. -/
def Assigned (name text : String) (lines : List (Option (String × String))) : Prop :=
  ∃ before after, lines = before ++ some (name, text) :: after ∧
    ∀ earlier ∈ before, ∃ other value, earlier = some (other, value) ∧ other ≠ name

/-- What is relied on of a loader that leaves the variables behind. -/
structure Loads (dotenv : Dotenv) (environment : Environment) (vars : Variables) : Prop where
  /-- The process goes on with the variables, also after a bad line. -/
  goesOn : dotenv.load environment = some vars
  /-- A variable with valid text keeps it. -/
  keeps : ∀ name text, environment.vars.text? name = some text → vars.text? name = some text
  /-- Another is set to the first text that is assigned to it before the first bad line. -/
  sets : ∀ name text, environment.vars.text? name = none →
    Assigned name text (dotenv.lines environment) → vars.text? name = some text
  /-- Nothing else is set. -/
  leaves : ∀ name, environment.vars.text? name = none →
    (∀ text, ¬Assigned name text (dotenv.lines environment)) → vars.text? name = none

end Dotenv

namespace Environment

/-- The variable has this effective value. -/
inductive Effective (dotenv : Dotenv) (environment : Environment) (name : String) :
    Option String → Prop where
  | process {bytes : ByteArray} {text : String} (set : environment.vars.lookup name = some bytes)
      (valid : String.fromUTF8? bytes = some text) : Effective dotenv environment name (some text)
  | file {text : String} (unset : environment.vars.text? name = none)
      (assigned : Dotenv.Assigned name text (dotenv.lines environment)) :
      Effective dotenv environment name (some text)
  | absent (unset : environment.vars.text? name = none)
      (unassigned : ∀ text, ¬Dotenv.Assigned name text (dotenv.lines environment)) :
      Effective dotenv environment name none

variable {dotenv : Dotenv} {environment : Environment} {vars : Variables} {name : String}
  {value : Option String}

/-- What a variable comes to is its effective value. -/
theorem effective_iff (loads : dotenv.Loads environment vars) :
    Effective dotenv environment name value ↔ vars.text? name = value := by
  constructor
  · rintro (⟨set, valid⟩ | ⟨unset, assigned⟩ | ⟨unset, unassigned⟩)
    · exact loads.keeps name _ (Option.bind_eq_some_iff.2 ⟨_, set, valid⟩)
    · exact loads.sets name _ unset assigned
    · exact loads.leaves name unset unassigned
  · rintro rfl
    cases own : environment.vars.text? name with
    | some text =>
      obtain ⟨bytes, set, valid⟩ := Option.bind_eq_some_iff.1 own
      rw [loads.keeps name text own]
      exact .process set valid
    | none =>
      by_cases assigned : ∃ text, Dotenv.Assigned name text (dotenv.lines environment)
      · obtain ⟨text, assigned⟩ := assigned
        rw [loads.sets name text own assigned]
        exact .file own assigned
      · have unassigned := not_exists.1 assigned
        rw [loads.leaves name own unassigned]
        exact .absent own unassigned

end Environment

/-! ## Plain files -/

namespace Variables

variable {vars : Variables} {name other : String}

/-- Text that a variable is set to is its text. -/
theorem text?_cons_self (value : String) :
    Variables.text? ((name, value.toUTF8) :: vars) name = some value := by
  rw [text?, List.lookup_cons_self, Option.bind_some, String.fromUTF8?,
    String.toUTF8_eq_toByteArray, dif_pos value.isValidUTF8]
  rfl

theorem text?_cons_of_ne (differs : name ≠ other) (bytes : ByteArray) :
    Variables.text? ((other, bytes) :: vars) name = vars.text? name := by
  have unequal : (name == other) = false := beq_false_of_ne differs
  rw [text?, List.lookup_cons, unequal, text?]

end Variables

namespace EnvFile

open Dotenv (Assigned)

variable {vars : Variables} {name other text value : String}
  {lines : List (Option (String × String))}

/-- One assignment, to a variable that has no valid text. -/
theorem assign_cons_of_unset (unset : vars.text? name = none) :
    assign vars (some (name, value) :: lines) = assign ((name, value.toUTF8) :: vars) lines := by
  rw [assign, unset, Option.isSome_none, if_neg Bool.false_ne_true]

/-- An assignment to another variable leaves a variable as it is. -/
theorem exists_assign_cons (vars : Variables) (value : String)
    (lines : List (Option (String × String))) (differs : other ≠ name) :
    ∃ vars' : Variables, assign vars (some (other, value) :: lines) = assign vars' lines ∧
      vars'.text? name = vars.text? name := by
  rw [assign]
  split
  · exact ⟨vars, rfl, rfl⟩
  · exact ⟨_, rfl, Variables.text?_cons_of_ne differs.symm _⟩

/-- A variable with valid text keeps it. -/
theorem text?_assign_of_set (set : vars.text? name = some text) :
    (assign vars lines).text? name = some text := by
  induction lines generalizing vars with
  | nil => exact set
  | cons line rest ih =>
    match line with
    | none => exact set
    | some (other, value) =>
      by_cases same : other = name
      · subst same
        rw [assign, set, Option.isSome_some, if_pos rfl]
        exact ih set
      · obtain ⟨vars', assigned, kept⟩ := exists_assign_cons vars value rest same
        rw [assigned]
        exact ih (kept.trans set)

/-- The first assignment before the first bad line counts. -/
theorem text?_assign_of_assigned (unset : vars.text? name = none)
    (assigned : Assigned name text lines) : (assign vars lines).text? name = some text := by
  obtain ⟨before, after, rfl, passed⟩ := assigned
  induction before generalizing vars with
  | nil =>
    rw [List.nil_append, assign_cons_of_unset unset]
    exact text?_assign_of_set (Variables.text?_cons_self text)
  | cons line before ih =>
    obtain ⟨⟨other, value, rfl, differs⟩, others⟩ := List.forall_mem_cons.1 passed
    obtain ⟨vars', assigned, kept⟩ := exists_assign_cons vars value
      (before ++ some (name, text) :: after) differs
    rw [List.cons_append, assigned]
    exact ih (kept.trans unset) others

/-- Without an assignment a variable stays without valid text. -/
theorem text?_assign_of_unassigned (unset : vars.text? name = none)
    (unassigned : ∀ text, ¬Assigned name text lines) : (assign vars lines).text? name = none := by
  induction lines generalizing vars with
  | nil => exact unset
  | cons line rest ih =>
    match line with
    | none => exact unset
    | some (other, value) =>
      have differs : other ≠ name := by
        rintro rfl
        exact unassigned value ⟨[], rest, rfl, List.forall_mem_nil _⟩
      obtain ⟨vars', assigned, kept⟩ := exists_assign_cons vars value rest differs
      rw [assigned]
      refine ih (kept.trans unset) fun text later => unassigned text ?_
      obtain ⟨before, after, rfl, passed⟩ := later
      exact ⟨some (other, value) :: before, after, rfl,
        List.forall_mem_cons.2 ⟨⟨other, value, rfl, differs⟩, passed⟩⟩

/-- The loader of plain files does what is relied on, whenever it loads a file. -/
theorem loads {environment : Environment} (goesOn : dotenv.load environment = some vars) :
    dotenv.Loads environment vars := by
  obtain ⟨text, plain, assigned⟩ := Option.map_eq_some_iff.1 goesOn
  have lines : dotenv.lines environment = ofText text := by
    change ((text? environment).map ofText).getD [] = _
    rw [plain]
    rfl
  obtain rfl := assigned
  exact {
    goesOn := goesOn
    keeps := fun _ _ set => text?_assign_of_set set
    sets := fun _ _ unset assigned => text?_assign_of_assigned unset (lines ▸ assigned)
    leaves := fun _ unset unassigned => text?_assign_of_unassigned unset (lines ▸ unassigned) }

end EnvFile

end Feedkeeper
