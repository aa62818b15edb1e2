import BootDisk.Proofs.CommandLine.Arguments

set_option autoImplicit false

/-!
# Switches among the arguments

A switch is a flag that is given once or not at all. Reading an argument looks at a switch only when
the argument is this switch itself. So arguments with a switch among them ask for the invocation that
the others ask for, with the switch on.
-/
namespace BootDisk.CommandLine

inductive Switch where
  | verify
  | dryRun
deriving DecidableEq, Repr

namespace Switch
open Arguments

def flag : Switch → Flag
  | verify => .verify
  | dryRun => .dryRun

def text (w : Switch) : String := w.flag.name

def get : Switch → State → Bool
  | verify, s => s.verify
  | dryRun, s => s.dryRun

def put : Switch → State → Bool → State
  | verify, s, b => { s with verify := b }
  | dryRun, s, b => { s with dryRun := b }

theorem get_put (w : Switch) (s : State) (b : Bool) : w.get (w.put s b) = b := by
  cases w <;> rfl

theorem put_get (w : Switch) (s : State) : w.put s (w.get s) = s := by cases w <;> rfl

theorem put_put (w : Switch) (s : State) (a b : Bool) : w.put (w.put s a) b = w.put s b := by
  cases w <;> rfl

section Frame
variable (w : Switch) (s : State) (b : Bool)

@[simp] theorem put_bootLoader : (w.put s b).bootLoader = s.bootLoader := by cases w <;> rfl

@[simp] theorem put_image : (w.put s b).image = s.image := by cases w <;> rfl

@[simp] theorem put_label : (w.put s b).label = s.label := by cases w <;> rfl

@[simp] theorem put_serial : (w.put s b).serial = s.serial := by cases w <;> rfl

@[simp] theorem put_awaiting : (w.put s b).awaiting = s.awaiting := by cases w <;> rfl

@[simp] theorem put_positionals : (w.put s b).positionals = s.positionals := by cases w <;> rfl

end Frame

/-- A reader never turns the switch off, and one that leaves it as it was has not looked at it. -/
structure Carries (w : Switch) (x : State → Reading) : Prop where
  on : ∀ {s r}, x s = .ok r → w.get s = true → w.get r = true
  put : ∀ {s r}, x s = .ok r → w.get s = w.get r → ∀ b, x (w.put s b) = .ok (w.put r b)

/-- A reader that neither looks at the switch nor changes it. -/
def Blind (w : Switch) (x : State → Reading) : Prop :=
  ∀ s b, x (w.put s b) = (x s).map fun r => w.put r b

section Readers
variable {w : Switch} {x y : State → Reading}

theorem Blind.get_eq (h : w.Blind x) {s r : State} (run : x s = .ok r) : w.get s = w.get r := by
  have same := h s (w.get s)
  rw [w.put_get, run] at same
  rw [Except.ok.inj same, w.get_put]

theorem Blind.carries (h : w.Blind x) : w.Carries x where
  on run raised := h.get_eq run ▸ raised
  put run _ b := by
    rw [h, run]
    rfl

theorem Blind.bind (hx : w.Blind x) (hy : w.Blind y) : w.Blind fun s => x s >>= y := by
  intro s b
  dsimp only
  rw [hx]
  cases x s with
  | error e => rfl
  | ok r => exact hy r b

theorem Carries.bind (hx : w.Carries x) (hy : w.Carries y) : w.Carries fun s => x s >>= y where
  on run raised := by
    obtain ⟨m, first, second⟩ := Outcome.bind_eq_ok_iff.1 run
    exact hy.on second (hx.on first raised)
  put run same b := by
    rename_i s r
    obtain ⟨m, first, second⟩ := Outcome.bind_eq_ok_iff.1 run
    -- The switch cannot be turned on in between without staying on.
    have between : w.get s = w.get m := by
      cases before : w.get s with
      | true => exact (hx.on first before).symm
      | false =>
        cases middle : w.get m with
        | false => rfl
        | true =>
          rw [before, hy.on second middle] at same
          cases same
    exact (Outcome.bind_ok (hx.put first between b)).trans (hy.put second (between ▸ same) b)

theorem carries_error (stop : Stop) : w.Carries fun _ => .error stop where
  on run := by cases run
  put run := by cases run

theorem map_path (slot : Slot) (old : Option Path) (text : String) (place : Path → State)
    (f : State → State) :
    (path slot old text place).map f = path slot old text fun p => f (place p) := by
  unfold path
  split
  · rfl
  · split
    · rfl
    · rfl

theorem blind_store (slot : Slot) (text : String) : w.Blind fun s => store s slot text := by
  intro s b
  cases slot with
  | bootLoader | image | root | manifest =>
    simp only [store, map_path]
    cases w <;> rfl
  | label =>
    simp only [store, put_label]
    split
    · rfl
    · cases w <;> rfl
  | serial =>
    simp only [store, put_serial]
    split
    · rfl
    · cases Serial.parse text with
      | error e => rfl
      | ok n => cases w <;> rfl

theorem blind_settle : w.Blind settle := by
  intro s b
  have cleared : { w.put s b with awaiting := none } = w.put { s with awaiting := none } b := by
    cases w <;> rfl
  rw [settle, settle, put_awaiting, cleared]
  cases s.awaiting with
  | none => rfl
  | some awaited =>
    obtain ⟨slot, value⟩ := awaited
    cases value with
    | none => rfl
    | some text => exact blind_store slot text _ b

theorem blind_option (slot : Slot) (value : Option String) :
    w.Blind fun s => option s slot value := by
  cases value with
  | some text => exact blind_settle.bind (blind_store slot text)
  | none =>
    refine blind_settle.bind (y := fun s => .ok { s with awaiting := some (slot, none) }) ?_
    intro s b
    cases w <;> rfl

theorem blind_next (text : String) (slot : Slot) : w.Blind fun s => positional.next s text slot := by
  refine blind_settle.bind (y := fun s =>
    .ok { s with positionals := s.positionals + 1, awaiting := some (slot, some text) }) ?_
  intro s b
  cases w <;> rfl

theorem blind_positional (text : String) : w.Blind fun s => positional s text := by
  intro s b
  simp only [positional, put_positionals]
  rcases s.positionals with _ | _ | _
  · exact blind_next text .bootLoader s b
  · exact blind_next text .image s b
  · rfl

theorem blind_plain (text : String) : w.Blind fun s => plain s text := by
  intro s b
  simp only [plain, put_awaiting]
  cases s.awaiting with
  | none => exact blind_positional text s b
  | some awaited =>
    obtain ⟨slot, value⟩ := awaited
    cases value with
    | none => cases w <;> rfl
    | some value => exact blind_positional text s b

def once (w : Switch) (s : State) : Reading :=
  if w.get s then refuse (.repeated w.text) else .ok (w.put s true)

theorem raise_flag (w : Switch) (s : State) : raise s w.flag = settle s >>= w.once := by
  cases w <;> rfl

theorem once_eq_ok_iff {s r : State} : w.once s = .ok r ↔ w.get s = false ∧ r = w.put s true := by
  unfold once
  cases w.get s with
  | true => exact ⟨fun h => (nomatch h), fun h => (nomatch h.1)⟩
  | false => exact ⟨fun h => ⟨rfl, (Except.ok.inj h).symm⟩, fun h => by rw [h.2]; rfl⟩

theorem carries_once (v : Switch) : w.Carries v.once := by
  by_cases own : v = w
  · subst own
    constructor
    · intro s r run _
      obtain ⟨_, rfl⟩ := once_eq_ok_iff.1 run
      exact v.get_put s true
    · intro s r run same
      obtain ⟨off, rfl⟩ := once_eq_ok_iff.1 run
      rw [off, v.get_put] at same
      cases same
  · apply Blind.carries
    intro s b
    have get : v.get (w.put s b) = v.get s := by cases v <;> cases w <;> first | rfl | exact absurd rfl own
    have put : v.put (w.put s b) true = w.put (v.put s true) b := by
      cases v <;> cases w <;> first | rfl | exact absurd rfl own
    rw [once, once, get, put]
    split
    · rfl
    · rfl

theorem carries_raise (flag : Flag) : w.Carries fun s => raise s flag := by
  cases flag with
  | verify => exact blind_settle.carries.bind (carries_once .verify)
  | dryRun => exact blind_settle.carries.bind (carries_once .dryRun)
  | verbose =>
    refine (blind_settle.bind (y := fun s => .ok { s with verbosity := s.verbosity + 1 }) ?_).carries
    intro s b
    cases w <;> rfl
  | help => exact (blind_settle.bind (y := fun _ => .error .help) fun _ _ => rfl).carries

theorem carries_long (body : List Char) : w.Carries fun s => long s body := by
  simp only [long]
  cases long? (cut body).1 with
  | none => exact carries_error _
  | some kind =>
    cases kind with
    | inl slot => exact (blind_option slot (cut body).2).carries
    | inr flag =>
      cases (cut body).2 with
      | some value => exact carries_error _
      | none => exact carries_raise flag

theorem carries_letters (body : List Char) : w.Carries fun s => letters s body := by
  induction body with
  | nil => exact Blind.carries fun s b => rfl
  | cons c rest ih =>
    simp only [letters]
    cases short? c with
    | none => exact carries_error _
    | some kind =>
      cases kind with
      | inl slot => exact (blind_option slot _).carries
      | inr flag => exact (carries_raise flag).bind ih

theorem carries_step (text : String) : w.Carries (step text) := by
  rcases step_cases text with ⟨body, same⟩ | same | ⟨body, _, same⟩
  · exact same ▸ carries_long body
  · exact same ▸ (blind_plain text).carries
  · exact same ▸ carries_letters body

theorem carries_readAll (plain : Bool) (texts : List String) :
    w.Carries fun s => readAll plain s texts := by
  induction texts generalizing plain with
  | nil => cases plain <;> exact blind_settle.carries
  | cons text rest ih =>
    cases plain with
    | true => exact (blind_positional text).carries.bind (ih true)
    | false =>
      by_cases dashes : text = "--"
      · subst dashes
        exact ih true
      · simp only [readAll_cons dashes]
        exact (carries_step text).bind (ih false)

end Readers

def isOn : Switch → Invocation → Bool
  | verify, i => i.verify
  | dryRun, i => i.dryRun

def set : Switch → Invocation → Bool → Invocation
  | verify, i, b => { i with verify := b }
  | dryRun, i, b => { i with dryRun := b }

def complete (s : State) : Except Stop Invocation :=
  match s.bootLoader, s.image with
  | some bootLoader, some image => .ok {
      bootLoader, image
      root := s.root.getD ⟨"."⟩
      manifest := s.manifest
      label := s.label
      serial := s.serial
      verify := s.verify
      dryRun := s.dryRun
      verbosity := s.verbosity }
  | _, _ => .error (.usage .missing)

theorem parse_eq (arguments : List String) :
    parse arguments = readAll false {} arguments >>= complete := rfl

/-- The second list has the switch as one argument more, in front of any double dash. -/
def Adds (w : Switch) (fewer more : List String) : Prop :=
  ∃ before after, "--" ∉ before ∧ fewer = before ++ after ∧ more = before ++ w.text :: after

section Parse
variable {w : Switch} {fewer more : List String} {i : Invocation}

theorem complete_put {s : State} (h : complete s = .ok i) (b : Bool) :
    complete (w.put s b) = .ok (w.set i b) := by
  unfold complete at h ⊢
  rw [put_bootLoader, put_image]
  split at h
  · cases h
    cases w <;> rfl
  · cases h

theorem isOn_complete {s : State} (h : complete s = .ok i) : w.isOn i = w.get s := by
  unfold complete at h
  split at h
  · cases h
    cases w <;> rfl
  · cases h

theorem step_text (s : State) : step w.text s = settle s >>= w.once := by
  rw [← raise_flag]
  cases w <;> rfl

theorem text_ne : w.text ≠ "--" := by cases w <;> decide

/-- A list with the switch asks for what the list without it asks for, with the switch on. -/
theorem parse_of_adds (adds : w.Adds fewer more) (accepted : parse more = .ok i) :
    w.isOn i = true ∧ parse fewer = .ok (w.set i false) := by
  obtain ⟨before, after, none, rfl, rfl⟩ := adds
  rw [parse_eq, readAll_append none] at accepted ⊢
  obtain ⟨s, read, whole⟩ := Outcome.bind_eq_ok_iff.1 accepted
  obtain ⟨first, scanned, rest⟩ := Outcome.bind_eq_ok_iff.1 read
  rw [readAll_cons text_ne, step_text] at rest
  obtain ⟨raised, raise, rest⟩ := Outcome.bind_eq_ok_iff.1 rest
  obtain ⟨settled, settle, once⟩ := Outcome.bind_eq_ok_iff.1 raise
  obtain ⟨off, rfl⟩ := once_eq_ok_iff.1 once
  -- What follows was read with the switch on, and so it can be read with the switch off.
  have carries := carries_readAll (w := w) false after
  have on : w.get s = true := carries.on rest (w.get_put _ _)
  have without := carries.put rest ((w.get_put _ _).trans on.symm) false
  have unset : w.put settled false = settled := by
    rw [← off, put_get]
  rw [put_put, unset] at without
  have read : (scan before {} >>= fun s => readAll false s after) = .ok (w.put s false) :=
    (Outcome.bind_ok scanned).trans ((readAll_settled settle false after).trans without)
  refine ⟨(isOn_complete whole).trans on, ?_⟩
  rw [Outcome.bind_ok read]
  exact complete_put whole false

theorem parse_cons (accepted : parse fewer = .ok i) (off : w.isOn i = false) :
    parse (w.text :: fewer) = .ok (w.set i true) := by
  rw [parse_eq] at accepted ⊢
  obtain ⟨s, read, whole⟩ := Outcome.bind_eq_ok_iff.1 accepted
  have raised : settle {} >>= w.once = .ok (w.put {} true) := by cases w <;> rfl
  have start : w.get {} = false := by cases w <;> rfl
  have same : w.get {} = w.get s := start.trans (off.symm.trans (isOn_complete whole))
  have again := (carries_readAll (w := w) false fewer).put read same true
  rw [readAll_cons text_ne, step_text, raised]
  exact (Outcome.bind_ok again).trans (complete_put whole true)

end Parse

end Switch
end BootDisk.CommandLine
