import Ldap.Json.Document
import Ldap.Proofs.Json.Token

/-! Documents without numbers, written and read back. A value may be read inside of open
containers, to which it is then supplied; so the invariant speaks of all containers that leave
enough levels. -/
namespace Ldap.Json

theorem Fields.put_new {name : String} {fields : Fields} (new : name ∉ fields.names) (v : Json) :
    fields.put name v = fields ++ [(name, v)] := by
  induction fields with
  | nil => rfl
  | cons field fields ih =>
    obtain ⟨key, old⟩ := field
    simp only [names, List.map_cons, List.mem_cons, not_or] at new
    rw [put, if_neg (Ne.symm new.1), ih new.2, List.cons_append]

/-- Values without numbers and without repeated names, of at most so many levels. -/
inductive Plain : Nat → Json → Prop
  | null (n : Nat) : Plain n .null
  | bool (n : Nat) (b : Bool) : Plain n (.bool b)
  | string (n : Nat) (s : String) : Plain n (.string s)
  | array {n : Nat} {vs : List Json} : (∀ v ∈ vs, Plain n v) → Plain (n + 1) (.array vs)
  | object {n : Nat} {fields : Fields} : fields.names.Nodup → (∀ field ∈ fields, Plain n field.2) →
    Plain (n + 1) (.object fields)

namespace Pending

def Runs (p : Pending) (ts : List Token) (q : Pending) : Prop := ts.foldlM next p = some q

theorem Runs.nil (p : Pending) : Runs p [] p := rfl

theorem Runs.step {p q last : Pending} {t : Token} {ts : List Token} (first : next p t = some q)
    (others : Runs q ts last) : Runs p (t :: ts) last := by
  rw [Runs, List.foldlM_cons, first]
  exact others

theorem Runs.append {p q last : Pending} {ts us : List Token} (first : Runs p ts q)
    (others : Runs q us last) :
    Runs p (ts ++ us) last := by
  rw [Runs, List.foldlM_append, first]
  exact others

theorem Runs.first_item {ts : List Token} {frames : List Frame} {v : Json}
    (h : Runs (.needValue (.array [] :: frames)) ts (supply v (.array [] :: frames))) :
    Runs (.firstItem frames) ts (supply v (.array [] :: frames)) := by
  cases ts with
  | nil => cases h
  | cons t ts =>
    rw [Runs, List.foldlM_cons] at h ⊢
    cases t with
    | closeArray => cases h
    | _ => exact h

end Pending

open Pending

/-- A value that is read back from its text at a level, inside of containers that leave `n`
levels. -/
def Reads (n level : Nat) (v : Json) : Prop :=
  ∃ ts, Tokenizes (pretty level v) ts ∧ ∀ frames : List Frame, frames.length + n ≤ maxDepth →
    Runs (.needValue frames) ts (supply v frames)

theorem reads_scalar {n level : Nat} {v : Json} {t : Token} (read : Tokenizes (pretty level v) [t])
    (begins : ∀ frames, begin frames t = some (supply v frames)) : Reads n level v :=
  ⟨[t], read, fun frames _ => .step (begins frames) (.nil _)⟩

theorem comma : Tokenizes [','] [.comma] := .token rfl fun _ => rfl

theorem colon : Tokenizes [':', ' '] [.colon] := by
  have mark : Tokenizes [':'] [.colon] := .token rfl fun _ => rfl
  have blank : Tokenizes [' '] [] := .space (by simp [Token.isSpace])
  exact mark.append blank

theorem reads_items {n level : Nat} {vs : List Json} (h : ∀ v ∈ vs, Reads n level v) :
    ∃ ts, Tokenizes (prettyItems level vs) ts ∧ ∀ (done : List Json) (frames : List Frame),
      frames.length + (n + 1) ≤ maxDepth →
      Runs (.afterItem done frames) ts (.afterItem (vs.reverse ++ done) frames) := by
  induction vs with
  | nil => exact ⟨[], .nil, fun done frames _ => .nil _⟩
  | cons v vs ih =>
    rw [List.forall_mem_cons] at h
    obtain ⟨first, first_text, first_read⟩ := h.1
    obtain ⟨others, others_text, others_read⟩ := ih h.2
    refine ⟨.comma :: (first ++ others), ?_, ?_⟩
    · have whole := comma.append ((Tokenizes.newLine level).append (first_text.append others_text))
      simpa [prettyItems] using whole
    · intro done frames room
      have value := first_read (.array done :: frames) (by rw [List.length_cons]; omega)
      have rest := others_read (v :: done) frames room
      rw [List.reverse_cons, List.append_assoc]
      exact .step rfl (value.append rest)

theorem reads_fields {n level : Nat} {fields : Fields}
    (h : ∀ field ∈ fields, Reads n level field.2) :
    ∃ ts, Tokenizes (prettyFields level fields) ts ∧ ∀ (done : Fields) (frames : List Frame),
      (done ++ fields).names.Nodup → frames.length + (n + 1) ≤ maxDepth →
      Runs (.afterField done frames) ts (.afterField (done ++ fields) frames) := by
  induction fields with
  | nil =>
    refine ⟨[], .nil, fun done frames _ _ => ?_⟩
    rw [List.append_nil]
    exact .nil _
  | cons field fields ih =>
    obtain ⟨key, v⟩ := field
    rw [List.forall_mem_cons] at h
    obtain ⟨first, first_text, first_read⟩ := h.1
    obtain ⟨others, others_text, others_read⟩ := ih h.2
    refine ⟨.comma :: .string key :: .colon :: (first ++ others), ?_, ?_⟩
    · have whole := comma.append ((Tokenizes.newLine level).append ((Tokenizes.quoted key).append
        (colon.append (first_text.append others_text))))
      simpa [prettyFields] using whole
    · intro done frames distinct room
      have new : key ∉ done.names := by
        simp only [Fields.names, List.map_append, List.map_cons, List.nodup_append] at distinct
        exact fun member => distinct.2.2 key member key List.mem_cons_self rfl
      have value := first_read (.object done key :: frames) (by rw [List.length_cons]; omega)
      have rest := others_read (done ++ [(key, v)]) frames (by simpa using distinct) room
      rw [supply, Fields.put_new new] at value
      rw [List.append_assoc] at rest
      exact .step rfl (.step rfl (.step rfl (value.append rest)))

theorem reads_array {n level : Nat} {vs : List Json} (h : ∀ v ∈ vs, Reads n (level + 1) v) :
    Reads (n + 1) level (.array vs) := by
  have opening : Tokenizes ['['] [.openArray] := .token rfl fun _ => rfl
  have closing : Tokenizes [']'] [.closeArray] := .token rfl fun _ => rfl
  cases vs with
  | nil =>
    refine ⟨[.openArray, .closeArray], opening.append closing, fun frames room => ?_⟩
    exact .step (if_pos (by omega)) (.step rfl (.nil _))
  | cons v vs =>
    rw [List.forall_mem_cons] at h
    obtain ⟨first, first_text, first_read⟩ := h.1
    obtain ⟨others, others_text, others_read⟩ := reads_items h.2
    refine ⟨.openArray :: (first ++ (others ++ [.closeArray])), ?_, fun frames room => ?_⟩
    · have whole := opening.append ((Tokenizes.newLine (level + 1)).append (first_text.append
        (others_text.append ((Tokenizes.newLine level).append closing))))
      simpa [pretty] using whole
    · have value := (first_read (.array [] :: frames) (by rw [List.length_cons]; omega)).first_item
      have rest := others_read [v] frames room
      have close :
          Runs (.afterItem (vs.reverse ++ [v]) frames) [.closeArray]
            (supply (.array (v :: vs)) frames) :=
        .step (by simp [next]) (.nil _)
      exact .step (if_pos (by omega)) (value.append (rest.append close))

theorem reads_object {n level : Nat} {fields : Fields} (distinct : fields.names.Nodup)
    (h : ∀ field ∈ fields, Reads n (level + 1) field.2) : Reads (n + 1) level (.object fields) := by
  have opening : Tokenizes ['\x7b'] [.openObject] := .token rfl fun _ => rfl
  have closing : Tokenizes ['\x7d'] [.closeObject] := .token rfl fun _ => rfl
  cases fields with
  | nil =>
    refine ⟨[.openObject, .closeObject], opening.append closing, fun frames room => ?_⟩
    exact .step (if_pos (by omega)) (.step rfl (.nil _))
  | cons field fields =>
    obtain ⟨key, v⟩ := field
    rw [List.forall_mem_cons] at h
    obtain ⟨first, first_text, first_read⟩ := h.1
    obtain ⟨others, others_text, others_read⟩ := reads_fields h.2
    refine ⟨.openObject :: .string key :: .colon :: (first ++ (others ++ [.closeObject])), ?_,
      fun frames room => ?_⟩
    · have whole :=
        opening.append ((Tokenizes.newLine (level + 1)).append ((Tokenizes.quoted key).append
        (colon.append
          (first_text.append (others_text.append ((Tokenizes.newLine level).append closing))))))
      simpa [pretty] using whole
    · have value := first_read (.object [] key :: frames) (by rw [List.length_cons]; omega)
      have rest := others_read [(key, v)] frames distinct room
      have close : Runs (.afterField ((key, v) :: fields) frames) [.closeObject]
        (supply (.object ((key, v) :: fields)) frames) := .step rfl (.nil _)
      exact .step (if_pos (by omega)) (.step rfl (.step rfl (value.append (rest.append close))))

theorem Plain.reads {n : Nat} {v : Json} (h : Plain n v) (level : Nat) : Reads n level v := by
  induction h generalizing level with
  | null n => exact reads_scalar (.token rfl fun _ => rfl) fun _ => rfl
  | bool n b => exact reads_scalar (.boolText b) fun _ => rfl
  | string n s => exact reads_scalar (.quoted s) fun _ => rfl
  | array _ ih => exact reads_array fun v member => ih v member (level + 1)
  | object distinct _ ih =>
    exact reads_object distinct fun field member => ih field member (level + 1)

theorem ofText?_toPretty {n : Nat} {v : Json} (plain : Plain n v) (depth : n ≤ maxDepth) :
    ofText? v.toPretty = some v := by
  obtain ⟨ts, text, read⟩ := plain.reads 0
  have run : ts.foldlM next (.needValue []) = some (.complete v) := read [] (by simpa using depth)
  rw [ofText?, toPretty, String.toList_ofList, text.tokens?_eq, Option.bind_eq_bind,
    Option.bind_some, ofTokens?, run]
  rfl

end Ldap.Json
