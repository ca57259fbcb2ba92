import Ldap.Proofs.Registry.Objects

/-! Runs of a registry. Whatever is asked of it, in whatever order, comes down to two events: a
decoder is registered, or a control is attempted. Looks at what is there leave it as it is. -/
namespace Ldap

inductive Input where
  | envelope (c : Envelope)
  | object (strictness : Strictness) (v : Json)

def Input.oid? : Input → Option String
  | .envelope c => some c.oid
  | .object _ v =>
    match v.field? "oid" with
    | some (.string oid) => some oid
    | _ => none

@[simp] theorem Input.oid?_object {p : Strictness} {v : Json} {oid : String} :
    (Input.object p v).oid? = some oid ↔ v.field? "oid" = some (.string oid) := by
  simp only [oid?]
  split <;> simp_all

namespace Registry

def attempt : Input → Registry → Except DecodeError Decoded × Registry
  | .envelope c, r => r.decode c
  | .object p v, r => r.decodeJson p v

def decoderFor? (input : Input) (r : Registry) : Option Decoder :=
  input.oid?.bind fun oid => r.decoder? oid

theorem decoderFor?_eq_none_iff {input : Input} {r : Registry} :
    r.decoderFor? input = none ↔ ∀ oid, input.oid? = some oid → r.isRegistered oid = false := by
  simp only [decoderFor?, Option.bind_eq_none_iff, isRegistered_eq_isSome,
    Option.isSome_eq_false_iff, Option.isNone_iff_eq_none]

/-- All that an attempt can come to: a control passes through, a decoder has its result recorded,
or an object that no decoder is found for is refused without a trace. -/
inductive Outcome (r : Registry) : Input → Except DecodeError Decoded × Registry → Prop
  | passedThrough {input : Input} {c : Envelope} : r.decoderFor? input = none →
      Outcome r input (.ok (.passedThrough c), { r with metrics := r.metrics.countPassedThrough })
  | recorded {input : Input} {oid : String} {d : Decoder} (result : Except DecodeError Control) :
      input.oid? = some oid → r.decoder? oid = some d → Outcome r input (r.record oid result)
  | refused {p : Strictness} {v : Json} {e : DecodeError} : r.decoderFor? (.object p v) = none →
      Outcome r (.object p v) (.error e, r)

theorem decodeJson_unnamed {p : Strictness} {v : Json} (unnamed : (Input.object p v).oid? = none)
    (r : Registry) :
    ∃ e, r.decodeJson p v = (.error e, r) := by
  have path : r.decodeJson p v = (.passedThrough <$> Envelope.ofJson p v, r) := by
    unfold decodeJson
    split
    · rename_i oid there
      rw [Input.oid?_object.2 there] at unnamed
      cases unnamed
    · rfl
  cases read : Envelope.ofJson p v with
  | error e => exact ⟨e, by rw [path, read]; rfl⟩
  | ok c =>
    have named : (Input.object p v).oid? = some c.oid :=
      Input.oid?_object.2 (Envelope.ofJson_ok read).2
    rw [named] at unnamed
    cases unnamed

theorem attempt_outcome (input : Input) (r : Registry) : r.Outcome input (r.attempt input) := by
  cases input with
  | envelope c =>
    have named : (Input.envelope c).oid? = some c.oid := rfl
    rw [attempt, decode]
    cases found : r.decoder? c.oid with
    | none => exact .passedThrough (by rw [decoderFor?, named, Option.bind_some, found])
    | some d => exact .recorded _ named found
  | object p v =>
    rw [attempt]
    cases named : (Input.object p v).oid? with
    | none =>
      obtain ⟨e, refused⟩ := decodeJson_unnamed named r
      rw [refused]
      exact .refused (by rw [decoderFor?, named, Option.bind_none])
    | some oid =>
      have there := Input.oid?_object.1 named
      cases found : r.decoder? oid with
      | some d =>
        rw [decodeJson_eq_record there found]
        exact .recorded _ named found
      | none =>
        have missing : r.decoderFor? (.object p v) = none := by
          rw [decoderFor?, named, Option.bind_some, found]
        simp only [decodeJson, there, found]
        cases Envelope.ofJson p v with
        | ok c => exact .passedThrough missing
        | error e => exact .refused missing

@[simp] theorem attempt_decoders (input : Input) (r : Registry) :
    (r.attempt input).2.decoders = r.decoders := by
  cases input with
  | envelope c => exact decode_decoders c r
  | object p v => exact decodeJson_decoders p v r

inductive Event where
  | registered (oid : String) (decoder : Decoder)
  | attempted (input : Input)

def Event.next : Event → Registry → Registry
  | .registered oid d, r => r.register oid d
  | .attempted input, r => (r.attempt input).2

def replay (es : List Event) (r : Registry) : Registry := es.foldl (fun r e => e.next r) r

@[simp] theorem replay_cons (e : Event) (es : List Event) (r : Registry) :
    r.replay (e :: es) = (e.next r).replay es := rfl

@[simp] theorem replay_append (es more : List Event) (r : Registry) :
    r.replay (es ++ more) = (r.replay es).replay more :=
  List.foldl_append

/-- The controls of a list that are attempted: those up to the first that cannot be decoded. -/
def tried : List Envelope → Registry → List Envelope
  | [], _ => []
  | c :: cs, r =>
    match r.decode c with
    | (.error _, _) => [c]
    | (.ok _, r) => c :: r.tried cs

inductive Operation where
  | register (oid : String) (decoder : Decoder)
  | registerKind (kind : Request.Kind)
  | registerAll
  | copy (source target : String)
  | decode (c : Envelope)
  | decodeAll (cs : List Envelope)
  | decodeJson (strictness : Strictness) (v : Json)
  | look

namespace Operation

def next : Operation → Registry → Registry
  | .register oid d, r => r.register oid d
  | .registerKind kind, r => r.registerKind kind
  | .registerAll, r => r.registerAll
  | .copy source target, r =>
    match r.decoder? source with
    | some d => r.register target d
    | none => r
  | .decode c, r => (r.decode c).2
  | .decodeAll cs, r => (r.decodeAll cs).2
  | .decodeJson p v, r => (r.decodeJson p v).2
  | .look, r => r

def events : Operation → Registry → List Event
  | .register oid d, _ => [.registered oid d]
  | .registerKind kind, _ => [.registered kind.oid (.ofKind kind)]
  | .registerAll, _ => Request.Kind.all.map fun kind => .registered kind.oid (.ofKind kind)
  | .copy source target, r => (r.decoder? source).toList.map fun d => .registered target d
  | .decode c, _ => [.attempted (.envelope c)]
  | .decodeAll cs, r => (r.tried cs).map fun c => .attempted (.envelope c)
  | .decodeJson p v, _ => [.attempted (.object p v)]
  | .look, _ => []

end Operation

theorem decodeAll_eq_replay (cs : List Envelope) (r : Registry) :
    (r.decodeAll cs).2 = r.replay ((r.tried cs).map fun c => .attempted (.envelope c)) := by
  induction cs generalizing r with
  | nil => rfl
  | cons c cs ih =>
    have first : (Event.attempted (.envelope c)).next r = (r.decode c).2 := rfl
    rw [decodeAll, tried]
    generalize r.decode c = step at first
    obtain ⟨result, after⟩ := step
    cases result with
    | error e => exact first.symm
    | ok d =>
      dsimp only
      rw [List.map_cons, replay_cons, first, ← ih after]
      generalize after.decodeAll cs = last
      obtain ⟨result, final⟩ := last
      cases result <;> rfl

theorem Operation.next_eq_replay (op : Operation) (r : Registry) :
    op.next r = r.replay (op.events r) := by
  cases op with
  | copy source target =>
    rw [next, events]
    cases r.decoder? source <;> rfl
  | decodeAll cs => exact decodeAll_eq_replay cs r
  | _ => rfl

def run : List Operation → Registry → Registry
  | [], r => r
  | op :: ops, r => (op.next r).run ops

def events : List Operation → Registry → List Event
  | [], _ => []
  | op :: ops, r => op.events r ++ (op.next r).events ops

theorem run_eq_replay (ops : List Operation) (r : Registry) :
    r.run ops = r.replay (r.events ops) := by
  induction ops generalizing r with
  | nil => rfl
  | cons op ops ih => simp [run, events, ← Operation.next_eq_replay, ih]

end Registry
end Ldap
