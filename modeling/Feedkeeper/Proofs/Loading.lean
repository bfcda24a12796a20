import Feedkeeper.Proofs.Environment
import Feedkeeper.Settings.Load

/-!
# Which settings are accepted

Settings are loaded from five variables. What a variable comes to is told by its effective value
(`Environment.Effective`). Four of the variables are to hold numbers (`Settings.Denotes`), and the
first that does not is the one that is blamed; only then the window is looked at
(`load_accepts_usable`). The digits of a number are read one at a time, with a look at the size of
the number after each (`Settings.readDigits_eq_ok_iff`).
-/

namespace Feedkeeper

open Environment (Effective)

/-! ## Numbers -/

namespace Settings

/-- The text is the number : digits, behind at most one plus sign, of a number of 64 bits. -/
def Denotes (text : String) (n : Nat) : Prop :=
  ∃ digits, (text.toList = digits ∨ text.toList = '+' :: digits) ∧ digits ≠ [] ∧
    (∀ c ∈ digits, Digits.isDigit c = true) ∧ Digits.value digits = n ∧ n < Nat.pow 2 64

/-- More digits make no number smaller. -/
theorem le_foldl_digits (n : Nat) (digits : List Char) :
    n ≤ digits.foldl (fun n c => 10 * n + Digits.digitValue c) n := by
  induction digits generalizing n with
  | nil => exact Nat.le_refl n
  | cons c rest ih => exact Nat.le_trans (by omega) (ih (10 * n + Digits.digitValue c))

/-- Digits are read as their number, as long as that is one of 64 bits. -/
theorem readDigits_eq_ok_iff {n m : Nat} (small : n < Nat.pow 2 64) {chars : List Char} :
    readDigits n chars = .ok m ↔ (∀ c ∈ chars, Digits.isDigit c = true) ∧
      chars.foldl (fun n c => 10 * n + Digits.digitValue c) n = m ∧ m < Nat.pow 2 64 := by
  induction chars generalizing n with
  | nil =>
    constructor
    · rintro ⟨⟩
      exact ⟨by simp, rfl, small⟩
    · rintro ⟨-, rfl, -⟩
      rfl
  | cons c rest ih =>
    have grows := le_foldl_digits (10 * n + Digits.digitValue c) rest
    rw [readDigits, List.forall_mem_cons, List.foldl_cons]
    split
    · rename_i digit
      dsimp only
      split
      · rename_i fits
        rw [ih fits]
        simp [digit]
      · rename_i large
        refine iff_of_false (by simp) ?_
        rintro ⟨-, rfl, fits⟩
        omega
    · rename_i other
      exact iff_of_false (by simp) fun h => other h.1.1

/-- A text is read as the number that it is. -/
theorem readNumber_eq_ok_iff {text : String} {n : Nat} :
    readNumber text = .ok n ↔ Denotes text n := by
  have plus : Digits.isDigit '+' = false := by decide
  have digits (chars : List Char) : readDigits 0 chars = .ok n ↔
      (∀ c ∈ chars, Digits.isDigit c = true) ∧ Digits.value chars = n ∧ n < Nat.pow 2 64 :=
    readDigits_eq_ok_iff (by decide)
  rw [Denotes, readNumber]
  split
  · rename_i empty
    refine iff_of_false (by simp) ?_
    rintro ⟨chars, same | same, nonempty, -⟩
    · exact nonempty (same.symm.trans empty)
    · simp [empty] at same
  · rename_i alone
    refine iff_of_false (by simp) ?_
    rintro ⟨chars, same | same, nonempty, all, -⟩
    · rw [← same, alone] at all
      simp [plus] at all
    · rw [alone] at same
      exact nonempty (List.cons.inj same).2.symm
  · rename_i chars notAlone signed
    rw [digits]
    constructor
    · intro h
      refine ⟨chars, Or.inr signed, ?_, h⟩
      rintro rfl
      exact notAlone rfl
    · rintro ⟨others, same | same, -, all, rest⟩
      · rw [← same, signed] at all
        simp [plus] at all
      · obtain rfl := (List.cons.inj (signed.symm.trans same)).2
        exact ⟨all, rest⟩
  · rename_i nonempty _ unsigned
    rw [digits]
    constructor
    · exact fun h => ⟨_, Or.inl rfl, nonempty, h⟩
    · rintro ⟨others, same | same, -, h⟩
      · rwa [same]
      · exact absurd same (unsigned others)

/-! ## Settings -/

/-- A variable that is to hold a number, with what counts if it has no value. -/
structure Numeric where
  name : String
  default : Nat

namespace Numeric

/-- The wait of the feed loop. -/
def pollInterval : Numeric := ⟨"SYNC_POLL_INTERVAL_MS", 2000⟩

/-- The wait while logged out. -/
def loginInterval : Numeric := ⟨"SYNC_LOGIN_POLL_INTERVAL_MS", 25⟩

/-- The size of a window. -/
def windowSize : Numeric := ⟨"SYNC_WINDOW_SIZE", 24⟩

/-- The wait of the poller. -/
def operationInterval : Numeric := ⟨"OPERATION_POLL_INTERVAL_MS", 250⟩

/-- All of them, in the order in which they are read. -/
def all : List Numeric :=
  [pollInterval, loginInterval, windowSize, operationInterval]

/-- The variable comes to the number : it has no value, or one that denotes the number. -/
def Gives (numeric : Numeric) (dotenv : Dotenv) (environment : Environment) (n : Nat) : Prop :=
  (Effective dotenv environment numeric.name none ∧ n = numeric.default) ∨
    ∃ text, Effective dotenv environment numeric.name (some text) ∧ Denotes text n

/-- The variable has no value, or one that denotes a number. -/
def Usable (numeric : Numeric) (dotenv : Dotenv) (environment : Environment) : Prop :=
  Effective dotenv environment numeric.name none ∨
    ∃ text n, Effective dotenv environment numeric.name (some text) ∧ Denotes text n

/-- The failure that blames the variable. -/
def blame (numeric : Numeric) (cause : NumberError) : Fault :=
  ⟨numeric.name ++ " must be a valid number", [cause.message]⟩

variable {numeric : Numeric} {dotenv : Dotenv} {environment : Environment} {vars : Variables}
  {n : Nat}

theorem Gives.usable (gives : numeric.Gives dotenv environment n) :
    numeric.Usable dotenv environment := by
  rcases gives with ⟨absent, -⟩ | ⟨text, value, denotes⟩
  · exact Or.inl absent
  · exact Or.inr ⟨text, n, value, denotes⟩

theorem Usable.exists_gives (usable : numeric.Usable dotenv environment) :
    ∃ n, numeric.Gives dotenv environment n := by
  rcases usable with absent | ⟨text, n, value, denotes⟩
  · exact ⟨_, Or.inl ⟨absent, rfl⟩⟩
  · exact ⟨n, Or.inr ⟨text, value, denotes⟩⟩

section

variable (loads : dotenv.Loads environment vars)

include loads

/-- What a variable comes to is what is read of it. -/
theorem number_eq_ok_iff :
    number vars numeric.name numeric.default = .ok n ↔ numeric.Gives dotenv environment n := by
  rw [number, Gives]
  simp only [Environment.effective_iff loads]
  cases vars.text? numeric.name with
  | none => simp [eq_comm]
  | some text =>
    simp only [← readNumber_eq_ok_iff]
    cases read : readNumber text <;> simp [read]

theorem Gives.eq {m : Nat} (gives : numeric.Gives dotenv environment n)
    (gives' : numeric.Gives dotenv environment m) : n = m :=
  Except.ok.inj (((number_eq_ok_iff loads).2 gives).symm.trans ((number_eq_ok_iff loads).2 gives'))

/-- A variable that comes to no number is blamed, for what is wrong with its text. -/
theorem exists_blame (unusable : ¬numeric.Usable dotenv environment) :
    ∃ text cause, Effective dotenv environment numeric.name (some text) ∧
      readNumber text = .error cause ∧
        number vars numeric.name numeric.default = .error (numeric.blame cause) := by
  rw [Usable] at unusable
  simp only [Environment.effective_iff loads, ← readNumber_eq_ok_iff] at unusable ⊢
  rw [number]
  cases value : vars.text? numeric.name with
  | none => exact absurd (Or.inl value) unusable
  | some text =>
    cases read : readNumber text with
    | ok n => exact absurd (Or.inr ⟨text, n, value, read⟩) unusable
    | error cause => exact ⟨text, cause, rfl, read, by simp only [read]; rfl⟩

end

end Numeric

/-- The settings are those of the variables. -/
structure Reflects (settings : Settings) (dotenv : Dotenv) (environment : Environment) :
    Prop where
  pollInterval : Numeric.pollInterval.Gives dotenv environment settings.pollInterval
  loginInterval : Numeric.loginInterval.Gives dotenv environment settings.loginInterval
  windowSize : Numeric.windowSize.Gives dotenv environment settings.windowSize
  cursorKey : Effective dotenv environment "SYNC_CURSOR_KEY" (some settings.cursorKey) ∨
    Effective dotenv environment "SYNC_CURSOR_KEY" none ∧
      settings.cursorKey = "keria-notification-marker"
  operationInterval : Numeric.operationInterval.Gives dotenv environment settings.operationInterval

/-- The failure that blames the size of the window. -/
def narrow : Fault :=
  ⟨"SYNC_WINDOW_SIZE must be at least 2", []⟩

variable {dotenv : Dotenv} {environment : Environment} {vars : Variables} {settings : Settings}

/-- The numbers that variables come to, read in turn up to the first that comes to none. -/
def numbers (vars : Variables) (numerics : List Numeric) : Except Fault (List Nat) :=
  numerics.mapM fun numeric => number vars numeric.name numeric.default

/-- The settings with the four numbers, if the window is large enough. -/
def assemble (vars : Variables) : List Nat → Except Fault Settings
  | [poll, login, window, operation] =>
    if window < 2 then .error narrow else .ok ⟨poll, login, window,
      (vars.text? "SYNC_CURSOR_KEY").getD "keria-notification-marker", operation⟩
  | _ => .error narrow

/-- Four numbers are read in turn, and then the window is looked at. -/
theorem fromVariables_eq (vars : Variables) :
    fromVariables vars = (numbers vars Numeric.all).bind (assemble vars) := by
  simp only [numbers, Numeric.all, Numeric.pollInterval, Numeric.loginInterval, Numeric.windowSize,
    Numeric.operationInterval, List.mapM_cons, List.mapM_nil, fromVariables]
  cases number vars "SYNC_POLL_INTERVAL_MS" 2000 <;>
    cases number vars "SYNC_LOGIN_POLL_INTERVAL_MS" 25 <;>
    cases number vars "SYNC_WINDOW_SIZE" 24 <;>
    cases number vars "OPERATION_POLL_INTERVAL_MS" 250 <;> rfl

/-- If not all variables come to numbers, one of them is the first. -/
theorem exists_first_unusable
    (unusable : ¬∀ numeric ∈ Numeric.all, numeric.Usable dotenv environment) :
    ∃ before numeric after, Numeric.all = before ++ numeric :: after ∧
      (∀ first ∈ before, first.Usable dotenv environment) ∧
        ¬numeric.Usable dotenv environment := by
  classical
  obtain ⟨numeric, mem, unusable⟩ :
      ∃ numeric ∈ Numeric.all, ¬numeric.Usable dotenv environment := by
    simpa using unusable
  have some : (Numeric.all.find? fun numeric =>
      decide (¬numeric.Usable dotenv environment)).isSome :=
    List.find?_isSome.2 ⟨numeric, mem, decide_eq_true unusable⟩
  obtain ⟨first, found⟩ := Option.isSome_iff_exists.1 some
  obtain ⟨blamed, before, after, order, earlier⟩ := List.find?_eq_some_iff_append.1 found
  exact ⟨before, first, after, order, fun numeric mem => by simpa using earlier numeric mem,
    of_decide_eq_true blamed⟩

theorem Reflects.usable (reflects : settings.Reflects dotenv environment) :
    ∀ numeric ∈ Numeric.all, numeric.Usable dotenv environment := by
  simp only [Numeric.all, List.forall_mem_cons]
  exact ⟨reflects.pollInterval.usable, reflects.loginInterval.usable, reflects.windowSize.usable,
    reflects.operationInterval.usable, by simp⟩

/-- No variable is blamed like a window that is too small. -/
theorem Numeric.blame_ne_narrow (numeric : Numeric) (cause : NumberError) :
    numeric.blame cause ≠ narrow := by
  intro same
  have texts : (numeric.blame cause).causes = narrow.causes := by rw [same]
  cases texts

/-! ### Once the file is loaded -/

section

variable (loads : dotenv.Loads environment vars)

include loads

/-- If all variables come to numbers, what is loaded hangs on the window alone. -/
theorem fromVariables_of_usable
    (usable : ∀ numeric ∈ Numeric.all, numeric.Usable dotenv environment) :
    ∃ settings : Settings, settings.Reflects dotenv environment ∧
      fromVariables vars =
        if settings.windowSize < 2 then .error narrow else .ok settings := by
  simp only [Numeric.all, List.forall_mem_cons] at usable
  obtain ⟨first, second, third, fourth, -⟩ := usable
  obtain ⟨poll, poll'⟩ := first.exists_gives
  obtain ⟨login, login'⟩ := second.exists_gives
  obtain ⟨window, window'⟩ := third.exists_gives
  obtain ⟨operation, operation'⟩ := fourth.exists_gives
  refine ⟨⟨poll, login, window,
    (vars.text? "SYNC_CURSOR_KEY").getD "keria-notification-marker", operation⟩,
    ⟨poll', login', window', ?_, operation'⟩, ?_⟩
  · cases value : vars.text? "SYNC_CURSOR_KEY" with
    | some key => exact Or.inl ((Environment.effective_iff loads).2 value)
    | none => exact Or.inr ⟨(Environment.effective_iff loads).2 value, rfl⟩
  · have read : numbers vars Numeric.all = .ok [poll, login, window, operation] := by
      simp only [numbers, Numeric.all, List.mapM_cons, List.mapM_nil,
        (Numeric.number_eq_ok_iff loads).2 poll', (Numeric.number_eq_ok_iff loads).2 login',
        (Numeric.number_eq_ok_iff loads).2 window', (Numeric.number_eq_ok_iff loads).2 operation']
      rfl
    rw [fromVariables_eq, read]
    rfl

/-- Reading stops at the first variable that comes to no number. -/
theorem numbers_eq_error {before after : List Numeric} {numeric : Numeric} {fault : Fault}
    (earlier : ∀ first ∈ before, first.Usable dotenv environment)
    (blamed : number vars numeric.name numeric.default = .error fault) :
    numbers vars (before ++ numeric :: after) = .error fault := by
  rw [numbers]
  induction before with
  | nil =>
    rw [List.nil_append, List.mapM_cons, blamed]
    rfl
  | cons first before ih =>
    obtain ⟨usable, earlier⟩ := List.forall_mem_cons.1 earlier
    obtain ⟨n, gives⟩ := usable.exists_gives
    rw [List.cons_append, List.mapM_cons, (Numeric.number_eq_ok_iff loads).2 gives, ih earlier]
    rfl

/-- The first variable that comes to no number is blamed. -/
theorem fromVariables_of_unusable {before after : List Numeric} {numeric : Numeric}
    (order : Numeric.all = before ++ numeric :: after)
    (earlier : ∀ first ∈ before, first.Usable dotenv environment)
    (unusable : ¬numeric.Usable dotenv environment) :
    ∃ text cause, Effective dotenv environment numeric.name (some text) ∧
      readNumber text = .error cause ∧ fromVariables vars = .error (numeric.blame cause) := by
  obtain ⟨text, cause, value, read, blamed⟩ := Numeric.exists_blame loads unusable
  refine ⟨text, cause, value, read, ?_⟩
  rw [fromVariables_eq, order, numbers_eq_error loads earlier blamed]
  rfl

/-- An environment has the settings of its variables and no others. -/
theorem Reflects.eq {settings' : Settings} (reflects : settings.Reflects dotenv environment)
    (reflects' : settings'.Reflects dotenv environment) : settings = settings' := by
  have key : settings.cursorKey = settings'.cursorKey := by
    have own := reflects.cursorKey
    have other := reflects'.cursorKey
    simp only [Environment.effective_iff loads] at own other
    rcases own with own | ⟨own, default⟩ <;> rcases other with other | ⟨other, default'⟩
    · exact Option.some.inj (own.symm.trans other)
    · cases own.symm.trans other
    · cases own.symm.trans other
    · rw [default, default']
  have poll := reflects.pollInterval.eq loads reflects'.pollInterval
  have login := reflects.loginInterval.eq loads reflects'.loginInterval
  have window := reflects.windowSize.eq loads reflects'.windowSize
  have operation := reflects.operationInterval.eq loads reflects'.operationInterval
  obtain ⟨_, _, _, _, _⟩ := settings
  obtain ⟨_, _, _, _, _⟩ := settings'
  simp_all

/-- Settings are loaded exactly if they are those of the variables and the window is large
enough. -/
theorem fromVariables_eq_ok_iff : fromVariables vars = .ok settings ↔
    settings.Reflects dotenv environment ∧ 2 ≤ settings.windowSize := by
  by_cases usable : ∀ numeric ∈ Numeric.all, numeric.Usable dotenv environment
  · obtain ⟨own, reflects, loaded⟩ := fromVariables_of_usable loads usable
    rw [loaded]
    constructor
    · split
      · nofun
      · rintro ⟨⟩
        exact ⟨reflects, by omega⟩
    · rintro ⟨reflects', wide⟩
      obtain rfl := reflects.eq loads reflects'
      rw [if_neg (by omega)]
  · obtain ⟨before, numeric, after, order, earlier, unusable'⟩ := exists_first_unusable usable
    obtain ⟨text, cause, -, -, refused⟩ := fromVariables_of_unusable loads order earlier unusable'
    rw [refused]
    exact iff_of_false nofun fun h => usable h.1.usable

/-- The window is blamed exactly if all variables come to numbers, and it to one below two. -/
theorem fromVariables_eq_narrow_iff : fromVariables vars = .error narrow ↔
    (∀ numeric ∈ Numeric.all, numeric.Usable dotenv environment) ∧
      ∃ n, Numeric.windowSize.Gives dotenv environment n ∧ n < 2 := by
  by_cases usable : ∀ numeric ∈ Numeric.all, numeric.Usable dotenv environment
  · obtain ⟨own, reflects, loaded⟩ := fromVariables_of_usable loads usable
    rw [loaded]
    constructor
    · split
      · exact fun _ => ⟨usable, own.windowSize, reflects.windowSize, ‹_›⟩
      · nofun
    · rintro ⟨-, n, gives, small⟩
      rw [if_pos (gives.eq loads reflects.windowSize ▸ small)]
  · obtain ⟨before, numeric, after, order, earlier, unusable'⟩ := exists_first_unusable usable
    obtain ⟨text, cause, -, -, refused⟩ := fromVariables_of_unusable loads order earlier unusable'
    refine iff_of_false ?_ fun h => usable h.1
    rw [refused]
    intro same
    exact numeric.blame_ne_narrow cause (Except.error.inj same)

end

/-- The variables that settings are loaded from. -/
def names : List String :=
  "SYNC_CURSOR_KEY" :: Numeric.all.map Numeric.name

theorem numbers_congr {others : Variables} {numerics : List Numeric}
    (same : ∀ name ∈ numerics.map Numeric.name, others.text? name = vars.text? name) :
    numbers others numerics = numbers vars numerics := by
  induction numerics with
  | nil => rfl
  | cons numeric rest ih =>
    obtain ⟨first, rest⟩ := List.forall_mem_cons.1 same
    have ih := ih rest
    rw [numbers, numbers] at ih ⊢
    rw [List.mapM_cons, List.mapM_cons, ih, number, number, first]

/-- Nothing but the texts of the five variables matters. -/
theorem fromVariables_congr {others : Variables}
    (same : ∀ name ∈ names, others.text? name = vars.text? name) :
    fromVariables others = fromVariables vars := by
  obtain ⟨key, values⟩ := List.forall_mem_cons.1 same
  have assembled : assemble others = assemble vars := by
    funext values
    unfold assemble
    rw [key]
  rw [fromVariables_eq, fromVariables_eq, numbers_congr values, assembled]

/-- Once its file is loaded, an environment gives settings exactly if each of the four variables for
numbers has no value or one that denotes a number of 64 bits, and the window comes to two at least.
Then the settings are those of the variables. If a variable comes to no number, the first such is
blamed, for what is wrong with its text; a window that is too small is only blamed if there is none.
All this hangs on the effective values of the five variables, of which each has one, and neither on
anything else in the environment nor on the loader. -/
theorem load_accepts_usable (loads : dotenv.Loads environment vars) :
    (∀ name, ∃! value, Effective dotenv environment name value) ∧
    ∃ outcome, load dotenv environment = some outcome ∧
    ((∃ settings, outcome = .ok settings) ↔
      (∀ numeric ∈ Numeric.all, numeric.Usable dotenv environment) ∧
        ∀ n, Numeric.windowSize.Gives dotenv environment n → 2 ≤ n) ∧
    (∀ settings, outcome = .ok settings ↔
      settings.Reflects dotenv environment ∧ 2 ≤ settings.windowSize) ∧
    (∀ before numeric after, Numeric.all = before ++ numeric :: after →
      (∀ first ∈ before, first.Usable dotenv environment) →
      ¬numeric.Usable dotenv environment →
      ∃ text cause, Effective dotenv environment numeric.name (some text) ∧
        readNumber text = .error cause ∧ outcome = .error (numeric.blame cause)) ∧
    (outcome = .error narrow ↔
      (∀ numeric ∈ Numeric.all, numeric.Usable dotenv environment) ∧
        ∃ n, Numeric.windowSize.Gives dotenv environment n ∧ n < 2) ∧
    ∀ (dotenv' : Dotenv) (environment' : Environment) (vars' : Variables),
      dotenv'.Loads environment' vars' →
      (∀ name ∈ names, ∀ value, Effective dotenv environment name value →
        Effective dotenv' environment' name value) →
      load dotenv' environment' = some outcome := by
  refine ⟨fun name => ?_, fromVariables vars, ?_, ?_, fun _ => fromVariables_eq_ok_iff loads,
    fun _ _ _ order earlier unusable => fromVariables_of_unusable loads order earlier unusable,
    fromVariables_eq_narrow_iff loads, fun dotenv' environment' vars' loads' same => ?_⟩
  · exact ⟨_, (Environment.effective_iff loads).2 rfl,
      fun _ h => ((Environment.effective_iff loads).1 h).symm⟩
  · rw [load, loads.goesOn, Option.map_some]
  · constructor
    · rintro ⟨settings, loaded⟩
      obtain ⟨reflects, wide⟩ := (fromVariables_eq_ok_iff loads).1 loaded
      exact ⟨reflects.usable, fun n gives => gives.eq loads reflects.windowSize ▸ wide⟩
    · rintro ⟨usable, wide⟩
      obtain ⟨settings, reflects, -⟩ := fromVariables_of_usable loads usable
      exact ⟨settings, (fromVariables_eq_ok_iff loads).2 ⟨reflects, wide _ reflects.windowSize⟩⟩
  · have alike : fromVariables vars' = fromVariables vars := by
      refine fromVariables_congr fun name mem => ?_
      exact (Environment.effective_iff loads').1
        (same name mem _ ((Environment.effective_iff loads).2 rfl))
    rw [load, loads'.goesOn, Option.map_some, alike]

/-- One variable of the process is text and another is not, and the file assigns to both, and to a
third one behind a bad line. -/
def partlySet : Environment where
  vars := [("SYNC_POLL_INTERVAL_MS", "+150".toUTF8), ("SYNC_WINDOW_SIZE", ⟨#[0xff]⟩)]
  file := some ("SYNC_WINDOW_SIZE=48\nSYNC_WINDOW_SIZE=7\nSYNC_POLL_INTERVAL_MS=9\n" ++
    "no assignment\nSYNC_CURSOR_KEY=late\n").toUTF8

/-- The text in the process counts, then the first assignment, and the rest is left out. -/
theorem load_accepts_usable_partly : (∃ vars, EnvFile.dotenv.Loads partlySet vars) ∧
    load EnvFile.dotenv partlySet = some (.ok { pollInterval := 150, windowSize := 48 }) ∧
    Reflects { pollInterval := 150, windowSize := 48 } EnvFile.dotenv partlySet := by
  obtain ⟨vars, goesOn⟩ : ∃ vars, EnvFile.dotenv.load partlySet = some vars :=
    Option.isSome_iff_exists.1 (by decide +kernel)
  have loaded : load EnvFile.dotenv partlySet =
      some (.ok { pollInterval := 150, windowSize := 48 }) := by decide +kernel
  have loads : EnvFile.dotenv.Loads partlySet vars := EnvFile.loads goesOn
  obtain ⟨-, outcome, same, -, accepted, -⟩ := load_accepts_usable loads
  obtain rfl := Option.some.inj (same.symm.trans loaded)
  exact ⟨⟨vars, loads⟩, loaded, ((accepted _).1 rfl).1⟩

end Settings

end Feedkeeper
