import TypeLayout.Registry.Basic
/-! The ids a type mentions, behind pointers too, and the weight of what a body holds. -/

namespace TypeLayout

mutual

def Descriptor.mentions : Descriptor → List TypeId
  | .fundamental _ | .enum _ => []
  | .named id => [id]
  | .pointer d => d.mentions
  | .array d _ => d.mentions
  | .aggregate ⟨_, _, members, bases, _⟩ => memberMentions members ++ baseMentions bases

def memberMentions : List Member → List TypeId
  | [] => []
  | ⟨_, d, _⟩ :: ms => d.mentions ++ memberMentions ms

def baseMentions : List BaseSpec → List TypeId
  | [] => []
  | ⟨d, _⟩ :: bs => d.mentions ++ baseMentions bs

end

def Definition.mentions : Definition → List TypeId
  | .aggregate body => (Descriptor.aggregate body).mentions
  | .enum _ => []
  | .typedef target => target.mentions

theorem mem_memberMentions {id : TypeId} {xs : List Member} :
    id ∈ memberMentions xs ↔ ∃ x ∈ xs, id ∈ x.type.mentions := by
  induction xs with
  | nil => simp [memberMentions]
  | cons x xs ih =>
    obtain ⟨_, d, _⟩ := x
    simp [memberMentions, ih]

theorem mem_baseMentions {id : TypeId} {bs : List BaseSpec} :
    id ∈ baseMentions bs ↔ ∃ b ∈ bs, id ∈ b.type.mentions := by
  induction bs with
  | nil => simp [baseMentions]
  | cons b bs ih =>
    obtain ⟨d, _⟩ := b
    simp [baseMentions, ih]

theorem mem_mentions_aggregate {id : TypeId} {a : Aggregate} :
    id ∈ (Descriptor.aggregate a).mentions ↔
      (∃ x ∈ a.members, id ∈ x.type.mentions) ∨ ∃ b ∈ a.bases, id ∈ b.type.mentions := by
  obtain ⟨_, _, members, bases, _⟩ := a
  simp [Descriptor.mentions, mem_memberMentions, mem_baseMentions]

theorem weight_lt_memberWeight {x : Member} {xs : List Member} (h : x ∈ xs) :
    x.type.weight < memberWeight xs := by
  induction xs with
  | nil => cases h
  | cons y ys ih =>
    obtain ⟨_, d, _⟩ := y
    simp only [memberWeight]
    rcases List.mem_cons.mp h with rfl | h
    · dsimp only
      omega
    · have hy := ih h
      omega

theorem weight_lt_baseWeight {b : BaseSpec} {bs : List BaseSpec} (h : b ∈ bs) :
    b.type.weight < baseWeight bs := by
  induction bs with
  | nil => cases h
  | cons c cs ih =>
    obtain ⟨d, _⟩ := c
    simp only [baseWeight]
    rcases List.mem_cons.mp h with rfl | h
    · dsimp only
      omega
    · have hc := ih h
      omega

@[simp] theorem weight_aggregate (a : Aggregate) :
    (Descriptor.aggregate a).weight = memberWeight a.members + baseWeight a.bases + 1 := by
  cases a
  simp [Descriptor.weight]

theorem Descriptor.weight_pos (d : Descriptor) : 0 < d.weight := by
  cases d with
  | aggregate a => simp
  | _ => simp [Descriptor.weight]

namespace Aggregate

variable {a : Aggregate}

theorem weight_member_lt {x : Member} (h : x ∈ a.members) :
    x.type.weight < (Descriptor.aggregate a).weight := by
  have hx := weight_lt_memberWeight h
  rw [weight_aggregate]
  omega

theorem weight_base_lt {b : BaseSpec} (h : b ∈ a.bases) :
    b.type.weight < (Descriptor.aggregate a).weight := by
  have hb := weight_lt_baseWeight h
  rw [weight_aggregate]
  omega

end Aggregate

end TypeLayout
