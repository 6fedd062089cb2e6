import UnoppServer.Json.Value

/-!
# The members of a request

What the accessors of `jsoncpp` accept, as predicates on the value: `FitsInt`,
`FitsUInt`, `FitsString`, `FitsBool`, and `TakesMembers` for the values that can
be indexed with a key. `Member payload key P` says that the payload can be
indexed and that the member, or null if there is none, satisfies `P`;
`Reads payload key conv a` that it is converted to `a`.
-/

namespace UnoppServer.Json

/-- The values that `asInt` converts. -/
def FitsInt : Json → Prop
  | .int i => minInt ≤ i ∧ i ≤ maxInt
  | .uint n => (n : Int) ≤ maxInt
  | .real d => d.inRange minInt maxInt = true
  | .null | .bool _ => True
  | .str _ | .arr _ | .obj _ => False

/-- The values that `asUInt` converts. -/
def FitsUInt : Json → Prop
  | .int i => 0 ≤ i ∧ i ≤ maxUInt
  | .uint n => (n : Int) ≤ maxUInt
  | .real d => d.inRange 0 maxUInt = true
  | .null | .bool _ => True
  | .str _ | .arr _ | .obj _ => False

/-- The values that `asString` converts. -/
def FitsString : Json → Prop
  | .arr _ | .obj _ => False
  | _ => True

/-- The values that `asBool` converts. -/
def FitsBool : Json → Prop
  | .str _ | .arr _ | .obj _ => False
  | _ => True

/-- The values that can be indexed with a key. -/
def TakesMembers : Json → Prop
  | .null | .obj _ => True
  | _ => False

theorem completes_asInt_iff (v : Json) : Completes v.asInt ↔ v.FitsInt := by
  cases v <;>
    simp only [asInt, FitsInt, completes_ite_iff, completes_ok, not_completes_error] <;> tauto

theorem completes_asUInt_iff (v : Json) : Completes v.asUInt ↔ v.FitsUInt := by
  cases v <;>
    simp only [asUInt, FitsUInt, completes_ite_iff, completes_ok, not_completes_error] <;> tauto

theorem completes_asString_iff (v : Json) : Completes v.asString ↔ v.FitsString := by
  cases v <;> simp only [asString, FitsString, completes_ok, not_completes_error]

theorem completes_asBool_iff (v : Json) : Completes v.asBool ↔ v.FitsBool := by
  cases v <;> simp only [asBool, FitsBool, completes_ok, not_completes_error]

theorem completes_find_iff (v : Json) (key : String) : Completes (v.find key) ↔ v.TakesMembers := by
  cases v <;> simp only [find, TakesMembers, completes_ok, not_completes_error]

theorem completes_get_iff (v : Json) (key : String) : Completes (v.get key) ↔ v.TakesMembers := by
  rw [← completes_find_iff v key, get]
  exact completes_bind_of fun _ _ => completes_ok _

theorem completes_isMember_iff (v : Json) (key : String) :
    Completes (v.isMember key) ↔ v.TakesMembers := by
  rw [← completes_find_iff v key, isMember]
  exact completes_bind_of fun _ _ => completes_ok _

theorem completes_set_iff (v : Json) (key : String) (value : Json) :
    Completes (v.set key value) ↔ v.TakesMembers := by
  cases v <;> simp only [set, TakesMembers, completes_ok, not_completes_error]

/-- What has been assigned to can be assigned to again. -/
theorem takesMembers_of_set {v v' : Json} {key : String} {value : Json}
    (h : v.set key value = .ok v') : v'.TakesMembers := by
  cases v with
  | null =>
    obtain rfl := Except.ok.inj h
    trivial
  | obj members =>
    obtain rfl := Except.ok.inj h
    trivial
  | _ => cases h

theorem completes_set_bind {β : Type} {v : Json} {key : String} {value : Json}
    {f : Json → Except Fault β} (hv : v.TakesMembers)
    (hf : ∀ v', v'.TakesMembers → Completes (f v')) : Completes (v.set key value >>= f) :=
  completes_bind_forall.mpr
    ⟨(completes_set_iff v key value).mpr hv, fun v' h => hf v' (takesMembers_of_set h)⟩

/-- The payload can be indexed, and its member under the key satisfies `P`. -/
def Member (payload : Json) (key : String) (P : Json → Prop) : Prop :=
  ∃ v, payload.get key = .ok v ∧ P v

/-- The member of the payload under the key, or null, is converted to `a`. -/
def Reads {α : Type} (payload : Json) (key : String) (conv : Json → Except Fault α) (a : α) :
    Prop :=
  payload.Member key fun v => conv v = .ok a

theorem Reads.unique {α : Type} {payload : Json} {key : String} {conv : Json → Except Fault α}
    {a b : α} (ha : payload.Reads key conv a) (hb : payload.Reads key conv b) : a = b := by
  obtain ⟨v, hv, ha⟩ := ha
  obtain ⟨v', hv', hb⟩ := hb
  obtain rfl := Except.ok.inj (hv.symm.trans hv')
  exact Except.ok.inj (ha.symm.trans hb)

theorem Member.reads {α : Type} {payload : Json} {key : String} {conv : Json → Except Fault α}
    {P : Json → Prop} (h : payload.Member key P) (hconv : ∀ v, Completes (conv v) ↔ P v) :
    ∃ a, payload.Reads key conv a := by
  obtain ⟨v, hv, hp⟩ := h
  obtain ⟨a, ha⟩ := (hconv v).mpr hp
  exact ⟨a, v, hv, ha⟩

section Accessor

variable {α β : Type} {payload : Json} {key : String} {conv : Json → Except Fault α}
  {P : Json → Prop}

/-- A member is converted. -/
theorem completes_member_conv_iff (hconv : ∀ v, Completes (conv v) ↔ P v) :
    Completes (do conv (← payload.get key)) ↔ payload.Member key P :=
  completes_bind_iff.trans (exists_congr fun v => and_congr_right fun _ => hconv v)

/-- A member is converted, and the rest of the computation always completes. -/
theorem completes_member_iff {f : α → Except Fault β} (hconv : ∀ v, Completes (conv v) ↔ P v)
    (hf : ∀ a, Completes (f a)) :
    Completes (do f (← conv (← payload.get key))) ↔ payload.Member key P := by
  refine completes_bind_iff.trans (exists_congr fun v => and_congr_right fun _ => ?_)
  rw [← hconv]
  exact completes_bind_of fun a _ => hf a

/-- A member is converted, and the rest of the computation completes under a
condition that does not depend on the value. -/
theorem completes_member_and {f : α → Except Fault β} (hconv : ∀ v, Completes (conv v) ↔ P v)
    {Q : Prop} (hf : ∀ a, Completes (f a) ↔ Q) :
    Completes (do f (← conv (← payload.get key))) ↔ payload.Member key P ∧ Q := by
  refine completes_bind_iff.trans (Iff.trans (exists_congr fun v => ?_) exists_and_right)
  rw [and_assoc]
  exact and_congr_right fun _ => completes_bind_and (hconv v) fun a _ => hf a

/-- A member is converted, and the rest of the computation completes under a
condition on the value. -/
theorem completes_member_forall {f : α → Except Fault β} (hconv : ∀ v, Completes (conv v) ↔ P v)
    {Q : α → Prop} (hf : ∀ a, Completes (f a) ↔ Q a) :
    Completes (do f (← conv (← payload.get key))) ↔
      payload.Member key P ∧ ∀ a, payload.Reads key conv a → Q a := by
  constructor
  · intro h
    obtain ⟨v, hv, hcv⟩ := completes_bind_iff.mp h
    obtain ⟨a, ha, hq⟩ := completes_bind_iff.mp hcv
    refine ⟨⟨v, hv, (hconv v).mp ⟨a, ha⟩⟩, fun a' h' => ?_⟩
    obtain rfl := Reads.unique ⟨v, hv, ha⟩ h'
    exact (hf a).mp hq
  · rintro ⟨⟨v, hv, hp⟩, hq⟩
    obtain ⟨a, ha⟩ := (hconv v).mpr hp
    refine completes_bind_iff.mpr ⟨v, hv, completes_bind_iff.mpr ⟨a, ha, ?_⟩⟩
    exact (hf a).mpr (hq a ⟨v, hv, ha⟩)

end Accessor

end UnoppServer.Json
