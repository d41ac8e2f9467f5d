import AnimationGrammar.Playback.Expansion
import AnimationGrammar.Playback.Offset

/-!
The preset for templates.

For every placed template one effect is made, given its files and attached to the template.  It is
stretched along the template where the animation says so, or where the template is a ray or a cone.
Every call is made on a handle of the sequencer and gives back a handle.  The result is the list of
calls in order, and the sequence that the preset was given; when a placement cannot be resolved, the
calls before it have been made.
-/

namespace AnimationGrammar

/-- A placed template: data with keys, or an object with attributes. -/
inductive Target
  | data (value : Value)
  | object (attributes : Value)

/-- The kind of a template, if it tells one: only mappings and objects do. -/
def Target.kind? : Target → Option Value
  | .data (.mapping entries) => lookupText "t" entries
  | .data _ => none
  | .object attributes => attributes.get? "t"

abbrev Options := List (Atom × Value)

inductive Call
  | effect
  | file (files : List String)
  | attachTo (target : Target) (options : Options)
  | stretchTo (target : Target) (options : Options)

/-- What the preset needs to know of an animation. -/
structure TemplateAnimation where
  /-- The assets to play, unless none are known. -/
  files : Option (List String)
  attachTo : Value
  stretchTo : Option Value

/-- Texts alone, or in a list. -/
def textList : Value → List String
  | .text text => [text]
  | .list items => items.filterMap fun item => match item with
      | .text text => some text
      | _ => none
  | _ => []

def TemplateAnimation.ofRecord (animation : Value) : TemplateAnimation :=
  let preset := ((animation.get? "options").bind (·.get? "preset")).getD .null
  { files := (animation.get? "file").map textList
    attachTo := (preset.get? "attachTo").getD .null
    stretchTo := preset.get? "stretchTo" }

/-- The templates that are drawn as a line from their origin. -/
def stretchedKinds : List String := ["ray", "cone"]

def Target.isStretched (target : Target) : Except PlaybackFailure Bool :=
  match target.kind? with
  | some (.text kind) => .ok (kind ∈ stretchedKinds)
  | some (.list items) => .error (.kindNotHashable (Value.list items).typeLabel)
  | some (.mapping entries) => .error (.kindNotHashable (Value.mapping entries).typeLabel)
  | _ => .ok false

/-- The handle that a sequencer gives back for a call on one of its handles. -/
abbrev Sequencer (η : Type) := η → Call → η

/-- The calls made so far with the handles that they are made on, and what comes of them or the reason
to stop. -/
structure Trace (η α : Type) where
  calls : List (η × Call)
  outcome : Except PlaybackFailure α

namespace Trace

variable {η σ α β : Type}

/-- One trace after another; nothing follows one that stopped. -/
def andThen (first : Trace η α) (next : α → Trace η β) : Trace η β :=
  match first.outcome with
  | .error failure => ⟨first.calls, .error failure⟩
  | .ok found =>
      let second := next found
      ⟨first.calls ++ second.calls, second.outcome⟩

/-- A call whose options have to be resolved first; the handle that it gives back goes on. -/
def ofPlacement (sequencer : Sequencer η) (source : RandomSource σ) (options : Value)
    (call : Options → Call) (receiver : η) (state : σ) : Trace η (η × σ) :=
  match resolvePlacement source options state with
  | .ok (resolved, state) =>
      ⟨[(receiver, call resolved)], .ok (sequencer receiver (call resolved), state)⟩
  | .error failure => ⟨[], .error failure⟩

end Trace

/-- Options that attach the effect as well. -/
def attached (options : Options) : Options :=
  if (lookupText "attachTo" options).isSome then
    options.map fun (key, value) =>
      if key = .text "attachTo" then (key, .boolean true) else (key, value)
  else options ++ [(.text "attachTo", .boolean true)]

section
variable {η σ : Type} (sequencer : Sequencer η) (source : RandomSource σ)

/-- Stretch an effect along its template, if that is to be done. -/
def stretchTrace (stretchTo : Option Value) (target : Target) (effect : η) (state : σ) : Trace η σ :=
  let stretch (options : Value) : Trace η σ :=
    (Trace.ofPlacement sequencer source options (fun resolved => .stretchTo target (attached resolved))
      effect state).andThen fun (_, state) => ⟨[], .ok state⟩
  match stretchTo with
  | some options => stretch options
  | none =>
      match target.isStretched with
      | .error failure => ⟨[], .error failure⟩
      | .ok true => stretch .null
      | .ok false => ⟨[], .ok state⟩

def targetTrace (files : List String) (animation : TemplateAnimation) (sequence : η)
    (target : Target) (state : σ) : Trace η σ :=
  let effect := sequencer sequence .effect
  let playing := sequencer effect (.file files)
  Trace.andThen ⟨[(sequence, .effect), (effect, .file files)], .ok state⟩ fun state =>
    (Trace.ofPlacement sequencer source animation.attachTo (.attachTo target ·) playing state).andThen
      fun (effect, state) => stretchTrace sequencer source animation.stretchTo target effect state

def targetsTrace (files : List String) (animation : TemplateAnimation) (sequence : η) :
    List Target → σ → Trace η σ
  | [], state => ⟨[], .ok state⟩
  | target :: rest, state =>
      (targetTrace sequencer source files animation sequence target state).andThen
        (targetsTrace files animation sequence rest)

/-- The calls of the preset, and the sequence that it gives back. -/
def templateTrace (animation : TemplateAnimation) (targets : List Target) (sequence : η) (state : σ) :
    Trace η (η × σ) :=
  match animation.files with
  | none => ⟨[], .error .fileMissing⟩
  | some files =>
      (targetsTrace sequencer source (expandFiles files) animation sequence targets state).andThen
        fun state => ⟨[], .ok (sequence, state)⟩

end

end AnimationGrammar
