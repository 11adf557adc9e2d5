import StoreTrial.Proofs.Command.Effects

/-!
# Systems as they are seen

A command runs on a system of which little has to be known. A `View` says what is seen of its
states: what the files hold, what is left of standard input, and what was written to standard
output. `Lawful` says how the actions of the host change that: an access that fails changes nothing,
a file is replaced as a whole, standard output can always be written, and standard input is only
read by the actions that are for it, which give all that is left of it or its first line. How many
files there are, which paths lead to the same file, which of them may be read or written, and what
else the system keeps is left open. The worlds of this library are one such system
(`World.lawful_view`).

`Satisfies` states what holds after an action, and `Finds` is the case of an action that changes
nothing that is seen, whether or not it ends with a fault. Actions that find what they look for can
be put together (`Finds.bind`).
-/

namespace StoreTrial.Command

section

variable {σ α : Type}

/-- From `state`, the action comes to a result and a state for which `post` holds. -/
def Satisfies (action : StateM σ α) (state : σ) (post : α → σ → Prop) : Prop :=
  post (StateT.run (m := Id) action state).1 (StateT.run (m := Id) action state).2

/-- What follows from what holds after an action holds after it, too. -/
theorem Satisfies.mono {action : StateM σ α} {state : σ} {post post' : α → σ → Prop}
    (h : Satisfies action state post) (himp : ∀ a after, post a after → post' a after) :
    Satisfies action state post' :=
  himp _ _ h

/-- What is known of an action in two ways holds after it. -/
theorem Satisfies.and {action : StateM σ α} {state : σ} {post post' : α → σ → Prop}
    (h : Satisfies action state post) (h' : Satisfies action state post') :
    Satisfies action state fun a after => post a after ∧ post' a after :=
  ⟨h, h'⟩

/-- What holds after an action holds of what it does. -/
theorem Does.of_satisfies {action : Action (StateM σ) α} {before after : σ}
    {result : Except Fault α} (h : Does action before result after)
    {post : Except Fault α → σ → Prop} (hpost : Satisfies action.run before post) :
    post result after := by
  unfold Does at h
  unfold Satisfies at hpost
  rwa [h] at hpost

end

/-- What is seen of the states of a system whose files are in places. -/
structure View (σ Place : Type) where
  /-- What the files hold. -/
  files : σ → Place → Option ByteArray
  /-- What is left of standard input. -/
  input : σ → ByteArray
  /-- What was written to standard output. -/
  output : σ → String
  /-- The place of the file that a path leads to. -/
  place? : String → Option Place

namespace View

variable {σ Place : Type}

section

variable (view : View σ Place)

/-- The files and standard output are the same. -/
def Same (before after : σ) : Prop :=
  view.files after = view.files before ∧ view.output after = view.output before

/-- All that is seen is the same, what is left of standard input included. -/
def Untouched (before after : σ) : Prop :=
  view.Same before after ∧ view.input after = view.input before

/-- The path leads to a file with the text `text`. -/
def Holds (state : σ) (path text : String) : Prop :=
  ∃ place bytes, view.place? path = some place ∧ view.files state place = some bytes ∧
    textOf bytes = .ok text

/-- The file that is named holds exactly the text `text`, or standard output has this text added if
no file is named. Nothing else changed. -/
def Received (path : Option String) (text : String) (before after : σ) : Prop :=
  match path with
  | some path =>
    view.output after = view.output before ∧ ∃ place, view.place? path = some place ∧
      view.files after place = some text.toUTF8 ∧
      ∀ other, other ≠ place → view.files after other = view.files before other
  | none => view.files after = view.files before ∧ view.output after = view.output before ++ text

/-- The actions of a host change what is seen as they should. -/
structure Lawful [Host (StateM σ)] : Prop where
  /-- Reading a file changes nothing, and gives what the file holds. -/
  readFile (path : String) (state : σ) :
    Satisfies (Host.readFile path) state fun result after =>
      view.Untouched state after ∧ ∀ text, result = .ok text → view.Holds state path text
  /-- A file is written as a whole or not at all. -/
  writeFile (path content : String) (state : σ) :
    Satisfies (Host.writeFile path content) state fun result after =>
      match result with
      | .ok () => view.Received (some path) content state after
      | .error _ => view.Same state after
  /-- Reading standard input gives what is left of it. -/
  readInput (state : σ) :
    Satisfies (Host.readInput (m := StateM σ)) state fun result after =>
      view.Same state after ∧ ∀ text, result = .ok text → textOf (view.input state) = .ok text
  /-- Reading a line gives the first line of what is left of standard input. -/
  readInputLine (state : σ) :
    Satisfies (Host.readInputLine (m := StateM σ)) state fun result after =>
      view.Same state after ∧
        ∀ text, result = .ok text → textOf (firstLine (view.input state)) = .ok text
  /-- Standard output is written. -/
  writeOutput (content : String) (state : σ) :
    Satisfies (Host.writeOutput content) state fun _ after =>
      view.Received none content state after
  /-- Standard error is neither a file nor standard output. -/
  writeError (content : String) (state : σ) :
    Satisfies (Host.writeError content) state fun _ after => view.Untouched state after
  /-- A seed that is drawn changes nothing. -/
  freshSeed (state : σ) :
    Satisfies (Host.freshSeed (m := StateM σ)) state fun _ after => view.Untouched state after
  /-- Events are kept neither in files nor on standard output. -/
  keep (events : List Event) (state : σ) :
    Satisfies (Host.keep (m := StateM σ) events) state fun _ after => view.Untouched state after

end

section

variable {view : View σ Place} {before between after : σ}

/-- Nothing changes where nothing is done. -/
theorem Untouched.refl (state : σ) : view.Untouched state state := ⟨⟨rfl, rfl⟩, rfl⟩

/-- Files and output stay the same if they do at first and later. -/
theorem Same.trans (h : view.Same before between) (h' : view.Same between after) :
    view.Same before after :=
  ⟨h'.1.trans h.1, h'.2.trans h.2⟩

/-- Nothing changes if nothing does at first and nothing does later. -/
theorem Untouched.trans (h : view.Untouched before between) (h' : view.Untouched between after) :
    view.Untouched before after :=
  ⟨h.1.trans h'.1, h'.2.trans h.2⟩

/-- What a file holds is the same before and after. -/
theorem Same.holds_iff (h : view.Same before after) {path text : String} :
    view.Holds after path text ↔ view.Holds before path text := by
  unfold Holds
  rw [h.1]

/-- A path leads to one text at most. -/
theorem Holds.unique {path text text' : String} (h : view.Holds before path text)
    (h' : view.Holds before path text') : text = text' := by
  obtain ⟨place, bytes, hplace, hbytes, htext⟩ := h
  obtain ⟨place', bytes', hplace', hbytes', htext'⟩ := h'
  obtain rfl : place = place' := Option.some.inj (hplace.symm.trans hplace')
  obtain rfl : bytes = bytes' := Option.some.inj (hbytes.symm.trans hbytes')
  exact Except.ok.inj (htext.symm.trans htext')

/-- A text is received by what was there before. -/
theorem Received.of_same {path : Option String} {text : String}
    (h : view.Received path text between after) (hsame : view.Same before between) :
    view.Received path text before after := by
  cases path with
  | some path =>
    obtain ⟨houtput, place, hplace, hself, hother⟩ := h
    refine ⟨houtput.trans hsame.2, place, hplace, hself, fun other hne => ?_⟩
    rw [hother other hne, hsame.1]
  | none => exact ⟨h.1.trans hsame.1, h.2.trans (congrArg (· ++ text) hsame.2)⟩

end

end View

/-! ## Worlds -/

namespace World

/-- All of a world is seen but standard error and the seed that nobody chose. -/
def view : View World String where
  files := World.files
  input := World.input
  output := World.output
  place? path := (Path.ofText path >>= fun path => path.file fun _ => false).toOption

/-- A path leads to a place if its parts do. -/
theorem place?_of_leads {path place : String} (h : Path.Leads path place) :
    view.place? path = some place := by
  obtain ⟨parts, hparts, hfile⟩ := h
  have hplace : (Path.ofText path >>= fun path => path.file fun _ => false) = .ok place := by
    rw [hparts]
    exact hfile _
  simp only [view, hplace]
  rfl

/-- A path that can be read leads to a place. -/
theorem leads_of_text {path text : String} {world : World} (h : world.text path = .ok text) :
    ∃ place, Path.Leads path place := by
  cases hparts : Path.ofText path with
  | error fault =>
    simp only [World.text, hparts] at h
    contradiction
  | ok parts =>
    cases hfile : parts.file world.isFile with
    | error fault =>
      -- Whether or not the walk to the end of the path is made first, there is no file.
      simp only [World.text, hparts, hfile, bind, Except.bind] at h
      split at h
      · split at h <;> contradiction
      · contradiction
    | ok place => exact ⟨place, parts, hparts, (Path.file_eq_ok hfile).1⟩

/-- A file that cannot be replaced leaves the world as it is. -/
theorem run_writeFile_of_error {path content : String} {fault : AccessFault} {world : World}
    (h : world.replace path content = .error fault) :
    StateT.run (m := Id) (Host.writeFile path content) world = (.error fault, world) := by
  simp only [Host.writeFile, StateT.run_bind, StateT.run_get, pure_bind, h]
  rfl

/-- A file that is written is replaced. -/
theorem run_writeFile_of_ok {path content : String} {world after : World}
    (h : world.replace path content = .ok after) :
    StateT.run (m := Id) (Host.writeFile path content) world = (.ok (), after) := by
  simp only [Host.writeFile, StateT.run_bind, StateT.run_get, pure_bind, h]
  rfl

/-- Worlds are lawful. -/
theorem lawful_view : view.Lawful where
  readFile path world := by
    refine ⟨.refl world, fun text htext => ?_⟩
    have hread : world.text path = .ok text := htext
    obtain ⟨place, hleads⟩ := leads_of_text hread
    rw [text_of_leads hleads] at hread
    cases hbytes : world.files place with
    | none =>
      rw [hbytes] at hread
      contradiction
    | some bytes =>
      rw [hbytes] at hread
      exact ⟨place, bytes, place?_of_leads hleads, hbytes, hread⟩
  writeFile path content world := by
    cases hreplace : world.replace path content with
    | error fault =>
      have hrun : StateT.run (m := Id) (Host.writeFile path content) world =
          (.error fault, world) := run_writeFile_of_error hreplace
      unfold Satisfies
      rw [hrun]
      exact ⟨rfl, rfl⟩
    | ok after =>
      have hrun : StateT.run (m := Id) (Host.writeFile path content) world = (.ok (), after) :=
        run_writeFile_of_ok hreplace
      obtain ⟨place, hleads, rfl⟩ := replace_eq_ok_iff.mp hreplace
      unfold Satisfies
      rw [hrun]
      refine ⟨rfl, place, place?_of_leads hleads, if_pos rfl, fun other hne => ?_⟩
      exact if_neg hne
  readInput world := ⟨⟨rfl, rfl⟩, fun _ htext => htext⟩
  readInputLine world := by
    have hrun : StateT.run (m := Id) (Host.readInputLine (m := StateM World)) world =
        (textOf (firstLine world.input),
          { world with input := afterFirstLine world.input }) := rfl
    unfold Satisfies
    rw [hrun]
    refine ⟨⟨rfl, rfl⟩, fun text htext => ?_⟩
    dsimp only at htext
    exact htext
  writeOutput content world := ⟨rfl, rfl⟩
  writeError content world := ⟨⟨rfl, rfl⟩, rfl⟩
  freshSeed world := .refl world
  keep events world := .refl world

end World

/-! ## Actions one after the other -/

section

variable {σ Place α β : Type} {action : Action (StateM σ) α} {next : α → Action (StateM σ) β}
  {state : σ}

/-- After an action with a value the next one goes on from there, and a fault is passed on. -/
theorem satisfies_bind {mid : Except Fault α → σ → Prop} {post : Except Fault β → σ → Prop}
    (h : Satisfies action.run state mid)
    (hok : ∀ a between, mid (.ok a) between → Satisfies (next a).run between post)
    (herror : ∀ fault between, mid (.error fault) between → post (.error fault) between) :
    Satisfies (action >>= next).run state post := by
  have hrun : StateT.run (m := Id) (action >>= next).run state =
      StateT.run (m := Id) (ExceptT.bindCont next (StateT.run (m := Id) action.run state).1)
        (StateT.run (m := Id) action.run state).2 := rfl
  unfold Satisfies at h ⊢
  rw [hrun]
  cases hresult : (StateT.run (m := Id) action.run state).1 with
  | error fault =>
    rw [hresult] at h
    exact herror fault _ h
  | ok a =>
    rw [hresult] at h
    exact hok a _ h

/-- What follows an action goes on from the value that the action comes to. -/
theorem Does.satisfies_bind {a : α} {between : σ} (h : Does action state (.ok a) between)
    {post : Except Fault β → σ → Prop} (hnext : Satisfies (next a).run between post) :
    Satisfies (action >>= next).run state post := by
  unfold Does at h
  unfold Satisfies at hnext ⊢
  rw [run_bind, h]
  exact hnext

/-- A result that is known leaves the state as it is. -/
theorem satisfies_known {known : Except Fault α} {post : Except Fault α → σ → Prop} :
    Satisfies (ExceptT.run (ExceptT.mk (pure known))) state post ↔ post known state := .rfl

/-- A sequence that ends with a value has that value if the action before it has no fault. -/
theorem satisfies_return {action : Action (StateM σ) Unit} {post : σ → Prop}
    (h : Satisfies action.run state fun result after => result = .ok () ∧ post after) (a : α) :
    Satisfies (do action; return a : Action (StateM σ) α).run state
      fun result after => result = .ok a ∧ post after := by
  refine satisfies_bind h ?_ ?_
  · rintro ⟨⟩ after ⟨-, hpost⟩
    exact satisfies_known.mpr ⟨rfl, hpost⟩
  · rintro fault after ⟨herror, -⟩
    contradiction

/-- An action of the host alone has no fault. -/
theorem satisfies_lift {action : StateM σ α} {post : Except Fault α → σ → Prop} :
    Satisfies (ExceptT.run (liftM action)) state post ↔
      Satisfies action state fun a after => post (.ok a) after := .rfl

/-- The fault of an access does not turn into a value. -/
theorem mapError_eq_ok_iff {ε ε' α : Type} {f : ε → ε'} {result : Except ε α} {a : α} :
    .ok a = result.mapError f ↔ result = .ok a := by
  cases result with
  | error fault => exact ⟨nofun, nofun⟩
  | ok b =>
    constructor
    · intro h
      rw [Except.ok.inj h]
    · rintro ⟨⟩
      rfl

/-- An access has the result of the access, and its fault is one of access. -/
theorem satisfies_access {action : StateM σ (Except AccessFault α)}
    {post : Except Fault α → σ → Prop} :
    Satisfies (access action).run state post ↔
      Satisfies action state fun result after => post (result.mapError .access) after := .rfl

end

/-! ## Actions that change nothing -/

/-- Wherever nothing has changed since `before`, the action changes nothing, and comes to a result
that is as `good` says. -/
def View.Finds {σ Place α : Type} (view : View σ Place) (before : σ) (action : Action (StateM σ) α)
    (good : Except Fault α → Prop) : Prop :=
  ∀ state, view.Untouched before state → Satisfies action.run state fun result after =>
    view.Untouched before after ∧ good result

section

variable {σ Place α β : Type} {view : View σ Place} {before : σ}

section

variable {action : Action (StateM σ) α} {next : α → Action (StateM σ) β}
  {good : Except Fault α → Prop}

/-- What a first action finds may be used by the next one, and nothing has changed until then. -/
theorem View.Finds.satisfies_bind {post : Except Fault β → σ → Prop}
    (h : view.Finds before action good)
    (hok : ∀ a, good (.ok a) → ∀ between, view.Untouched before between →
      Satisfies (next a).run between post)
    (herror : ∀ fault, good (.error fault) → ∀ between, view.Untouched before between →
      post (.error fault) between) {state : σ} (hstate : view.Untouched before state) :
    Satisfies (action >>= next).run state post := by
  refine Command.satisfies_bind (h state hstate) ?_ ?_
  · rintro a between ⟨huntouched, hgood⟩
    exact hok a hgood between huntouched
  · rintro fault between ⟨huntouched, hgood⟩
    exact herror fault hgood between huntouched

/-- The value that an action is known to come to may be used by the next one. -/
theorem View.Finds.satisfies_bind_of_ok {a : α} (h : view.Finds before action (· = .ok a))
    {post : Except Fault β → σ → Prop}
    (hnext : ∀ between, view.Untouched before between → Satisfies (next a).run between post)
    {state : σ} (hstate : view.Untouched before state) :
    Satisfies (action >>= next).run state post := by
  refine h.satisfies_bind ?_ nofun hstate
  rintro _ ⟨⟩
  exact hnext

/-- Two actions that change nothing find what the second one finds. -/
theorem View.Finds.bind {good' : Except Fault β → Prop} (h : view.Finds before action good)
    (hok : ∀ a, good (.ok a) → view.Finds before (next a) good')
    (herror : ∀ fault, good (.error fault) → good' (.error fault)) :
    view.Finds before (action >>= next) good' :=
  fun _ hstate => h.satisfies_bind hok
    (fun fault hfault _ huntouched => ⟨huntouched, herror fault hfault⟩) hstate

/-- What is good of what an action finds may be said in less detail. -/
theorem View.Finds.mono {good' : Except Fault α → Prop} (h : view.Finds before action good)
    (himp : ∀ result, good result → good' result) : view.Finds before action good' :=
  fun state hstate => (h state hstate).mono fun result _ hafter => ⟨hafter.1, himp result hafter.2⟩

end

/-- What is known is found. -/
theorem finds_known (known : Except Fault α) :
    view.Finds before (ExceptT.mk (pure known)) (· = known) :=
  fun _ hstate => satisfies_known.mpr ⟨hstate, rfl⟩

/-- What is known can be turned into something else. -/
theorem finds_map_known (f : α → β) (known : Except Fault α) :
    view.Finds before (f <$> ExceptT.mk (pure known)) (· = known.map f) := by
  cases known with
  | error fault => exact finds_known (.error fault)
  | ok a => exact finds_known (.ok (f a))

/-- An action of the host that changes nothing has no fault. -/
theorem finds_lift {action : StateM σ α} {good : α → Prop}
    (h : ∀ state, view.Untouched before state →
      Satisfies action state fun a after => view.Untouched state after ∧ good a) :
    view.Finds before (liftM action) fun result => ∃ a, result = .ok a ∧ good a := by
  intro state hstate
  refine satisfies_lift.mpr ((h state hstate).mono ?_)
  rintro a after ⟨huntouched, hgood⟩
  exact ⟨hstate.trans huntouched, a, rfl, hgood⟩

/-- An access that changes nothing finds what it comes to. -/
theorem finds_access {action : StateM σ (Except AccessFault α)}
    {good : Except AccessFault α → Prop}
    (h : ∀ state, view.Untouched before state → Satisfies action state fun result after =>
      view.Untouched state after ∧ good result) :
    view.Finds before (access action) fun result =>
      ∃ result', result = result'.mapError .access ∧ good result' := by
  intro state hstate
  refine satisfies_access.mpr ((h state hstate).mono ?_)
  rintro result after ⟨huntouched, hgood⟩
  exact ⟨hstate.trans huntouched, result, rfl, hgood⟩

/-- An action of the host that cannot be seen comes to something or other. -/
theorem finds_lift_of_untouched {action : StateM σ α}
    (h : ∀ state, Satisfies action state fun _ after => view.Untouched state after) :
    view.Finds before (liftM action) fun result => ∃ a, result = .ok a := by
  intro state hstate
  refine satisfies_lift.mpr ((h state).mono fun a after huntouched => ?_)
  exact ⟨hstate.trans huntouched, a, rfl⟩

variable [Host (StateM σ)] (hview : view.Lawful)

include hview

/-- Reading a file changes nothing, and a text that is read is what the file held before. -/
theorem satisfies_readFile (path : String) {state : σ} (hstate : view.Untouched before state) :
    Satisfies (Host.readFile path) state fun result after =>
      view.Untouched state after ∧ ∀ text, result = .ok text → view.Holds before path text :=
  (hview.readFile path state).mono fun _ _ h =>
    ⟨h.1, fun text htext => hstate.1.holds_iff.mp (h.2 text htext)⟩

/-- A file is found as what it held before. -/
theorem finds_readFile (path : String) :
    view.Finds before (access (Host.readFile path)) fun result =>
      ∀ text, result = .ok text → view.Holds before path text := by
  refine (finds_access fun _ => satisfies_readFile hview path).mono ?_
  rintro _ ⟨result, rfl, hread⟩ text htext
  exact hread text (mapError_eq_ok_iff.mp htext.symm)

/-- A text is written where it is asked to be written, or not at all. -/
theorem satisfies_writeTo (path : Option String) (text : String) {state : σ}
    (hstate : view.Same before state) :
    Satisfies (writeTo path text : Action (StateM σ) Unit).run state fun result after =>
      match result with
      | .ok () => view.Received path text before after
      | .error _ => view.Same before after := by
  cases path with
  | some path =>
    refine satisfies_access.mpr ((hview.writeFile path text state).mono ?_)
    rintro (fault | ⟨⟩) after hafter
    · exact hstate.trans hafter
    · exact hafter.of_same hstate
  | none =>
    refine satisfies_lift.mpr ((hview.writeOutput text state).mono ?_)
    exact fun _ after hafter => hafter.of_same hstate

/-- Events are kept without a trace. -/
theorem finds_keep (events : List Event) :
    view.Finds before (liftM (Host.keep (m := StateM σ) events)) fun result =>
      ∃ a, result = .ok a :=
  finds_lift_of_untouched (hview.keep events)

/-- A part of a trial finds its result. -/
theorem finds_trial (part : Trial α) :
    view.Finds before (trial part) (· = part.run.value) := by
  refine (finds_keep hview part.run.events).bind (fun _ _ => finds_known part.run.value) ?_
  rintro fault ⟨_, _, _⟩

end

end StoreTrial.Command
