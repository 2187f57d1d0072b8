import FreifunkManager.Model.Debouncer

/-! # When the list is rendered

A message that is handled asks for a rendering of the page, and the page renders the view that is shown. The list is
one of the views, and renders its table in turn. Both are debounced. The search field renders the list without the
page. A rendering of the table may throw, and so may that of the rest of the page. The controls of the list and of the
map, which change nodes of the store in place and ask for no rendering, are left out.
-/

namespace FreifunkManager.Rendering

open Debouncer

def guiRenderDebouncerTime : ℕ := 100

/-- The delay of the debouncer of the list. -/
def listTime : ℕ := 1000

variable {α : Type}

/-- What the list is about is the nodes of the store and the text that is searched for. -/
structure State (α : Type) where
  content : α
  /-- The content that the table was rendered with. -/
  shown : α
  /-- The list is the current view. -/
  current : Bool := false
  gui : Debouncer.State
  list : Debouncer.State
  now : Instant

inductive Action (α : Type) where
  /-- A message is handled, and the page is rendered. -/
  | onmessage (content : α)
  | keyup (content : α)
  /-- The list or another view is shown. -/
  | setView (list : Bool)
  | expireGui (handle : ℕ)
  | expireList (handle : ℕ)

/-- The table is rendered until `drawn`, if it is, and what else has to be done takes until `finish`. -/
structure Event (α : Type) where
  action : Action α
  start : Instant
  drawn : Instant
  finish : Instant
  /-- Rendering the table throws. -/
  throws : Bool := false
  /-- Rendering the rest of the page throws. -/
  restThrows : Bool := false

namespace State

variable (s : State α) (start drawn finish : Instant) (throws restThrows : Bool)

/-- `ListView.render`. An exception leaves the table as it was. -/
def renderList : Option (State α) :=
  (s.list.step listTime (.run start drawn throws)).map fun list =>
    { s with list, shown := if s.list.timer = none ∧ throws = false then s.content else s.shown }

/-- `renderView` of the page. -/
def renderView : Option (State α) := if s.current then s.renderList start drawn throws else some s

/-- `renderView` of the page throws: the table does, if it is rendered, or else what comes after it. -/
def viewThrows : Bool := (s.current && s.list.timer.isNone && throws) || restThrows

/-- `render` of the page. -/
def render : Option (State α) :=
  (s.gui.step guiRenderDebouncerTime (.run start finish (s.viewThrows throws restThrows))).bind fun gui =>
    if s.gui.timer = none then { s with gui }.renderView start drawn throws else some { s with gui }

def expireGui (handle : ℕ) : Option (State α) :=
  (s.gui.step guiRenderDebouncerTime (.expire handle start finish (s.viewThrows throws restThrows))).bind fun gui =>
    if s.gui.numCallsSkipped > 0 then { s with gui }.renderView start drawn throws else some { s with gui }

def expireList (handle : ℕ) : Option (State α) :=
  (s.list.step listTime (.expire handle start drawn throws)).map fun list =>
    { s with list, shown := if s.list.numCallsSkipped > 0 ∧ throws = false then s.content else s.shown }

def act : Action α → Option (State α)
  | .onmessage content => { s with content }.render start drawn finish throws restThrows
  | .keyup content => { s with content }.renderList start drawn throws
  | .setView list => { s with current := list }.renderView start drawn throws
  | .expireGui handle => s.expireGui start drawn finish throws restThrows handle
  | .expireList handle => s.expireList start drawn throws handle

def step (event : Event α) : Option (State α) :=
  if s.now ≤ event.start ∧ event.start ≤ event.drawn ∧ event.drawn ≤ event.finish then
    (s.act event.start event.drawn event.finish event.throws event.restThrows event.action).map fun next =>
      { next with now := event.finish }
  else none

end State

/-- The page as it is loaded, where the table shows something already or is empty. -/
def initial (content shown : α) (now : Instant) : State α where
  content
  shown
  gui := { now }
  list := { now }
  now

/-- The page after these events, of which the latest is the first. -/
def after (content shown : α) (now : Instant) : List (Event α) → Option (State α)
  | [] => some (initial content shown now)
  | event :: past => (after content shown now past).bind (·.step event)

end FreifunkManager.Rendering
