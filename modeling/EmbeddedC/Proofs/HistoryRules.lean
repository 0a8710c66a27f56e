/-!
# Rules about a history

Rules about a list of happenings, read from its end: each happening against all before it, and
whether something that happened has been made up for since.
-/

namespace EmbeddedC

variable {α : Type} {l : List α} {a : α}

/-- Each happening is as the rule allows after those before it. -/
def Heeds (rule : List α → α → Prop) (l : List α) : Prop :=
  ∀ before a after, l = before ++ a :: after → rule before a

/-- Something that `p` is about has happened, and nothing that `q` is about since then. -/
def Pending (p q : α → Bool) (l : List α) : Prop :=
  ∃ before a after, l = before ++ a :: after ∧ p a ∧ ∀ b ∈ after, ¬q b

theorem getElem?_append_singleton (l : List α) (a : α) (k : Nat) :
    (l ++ [a])[k]? = if k = l.length then some a else l[k]? := by
  rcases Nat.lt_trichotomy k l.length with hlt | heq | hgt
  · rw [List.getElem?_append_left hlt, if_neg (Nat.ne_of_lt hlt)]
  · simp [heq]
  · have hout : (l ++ [a]).length ≤ k := by
      rw [List.length_append, List.length_singleton]
      omega
    rw [List.getElem?_eq_none hout, if_neg (Nat.ne_of_gt hgt),
      List.getElem?_eq_none (Nat.le_of_lt hgt)]

/-- A place in a list that has grown by one is its end or a place in the old list. -/
theorem append_singleton_eq_iff {before after : List α} {b : α} :
    l ++ [a] = before ++ b :: after ↔
      l = before ∧ a = b ∧ after = [] ∨
        ∃ after', after = after' ++ [a] ∧ l = before ++ b :: after' := by
  constructor
  · intro h
    rcases List.eq_nil_or_concat after with rfl | ⟨after', x, rfl⟩
    · obtain ⟨hl, ha⟩ := List.append_inj' h rfl
      exact .inl ⟨hl, List.head_eq_of_cons_eq ha, rfl⟩
    · rw [List.concat_eq_append, ← List.cons_append, ← List.append_assoc] at h
      obtain ⟨hl, ha⟩ := List.append_inj' h rfl
      cases List.head_eq_of_cons_eq ha
      exact .inr ⟨after', List.concat_eq_append, hl⟩
  · rintro (⟨rfl, rfl, rfl⟩ | ⟨after', rfl, rfl⟩)
    · rfl
    · simp

section Heeds

variable {rule : List α → α → Prop}

theorem heeds_nil : Heeds rule [] := by
  intro before a after h
  simp at h

@[simp] theorem heeds_append_singleton : Heeds rule (l ++ [a]) ↔ Heeds rule l ∧ rule l a := by
  constructor
  · intro h
    refine ⟨fun before b after hl => ?_, h l a [] rfl⟩
    exact h before b (after ++ [a]) (by simp [hl])
  · rintro ⟨hl, ha⟩ before b after h
    rcases append_singleton_eq_iff.1 h with ⟨rfl, rfl, _⟩ | ⟨after', _, h⟩
    · exact ha
    · exact hl before b after' h

/-- What may only happen if it has not happened before happens at most once. -/
theorem Heeds.countP_le_one {p : α → Bool} (hl : Heeds rule l)
    (h : ∀ before a, rule before a → p a → before.any p = false) : l.countP p ≤ 1 := by
  apply Nat.le_of_not_lt
  intro hlt
  obtain ⟨before, a, after, rfl, hbefore, ha⟩ :
      ∃ before a after, l = before ++ a :: after ∧ before.any p ∧ p a := by
    clear hl h
    induction l with
    | nil => simp at hlt
    | cons b l ih =>
      by_cases hb : p b
      · rw [List.countP_cons_of_pos hb] at hlt
        obtain ⟨a, ha, hp⟩ := List.countP_pos_iff.1 (Nat.lt_of_succ_lt_succ hlt)
        obtain ⟨before, after, rfl⟩ := List.append_of_mem ha
        exact ⟨b :: before, a, after, rfl, by simp [hb], hp⟩
      · rw [List.countP_cons_of_neg hb] at hlt
        obtain ⟨before, a, after, rfl, hbefore, ha⟩ := ih hlt
        exact ⟨b :: before, a, after, rfl, by simp [hbefore], ha⟩
  have := h before a (hl before a after rfl) ha
  simp [hbefore] at this

end Heeds

section Pending

variable {p q : α → Bool}

@[simp] theorem not_pending_nil : ¬Pending p q [] := by
  rintro ⟨before, a, after, h, _⟩
  simp at h

@[simp] theorem pending_append_singleton :
    Pending p q (l ++ [a]) ↔ p a ∨ Pending p q l ∧ ¬q a := by
  constructor
  · rintro ⟨before, b, after, h, hp, hq⟩
    rcases append_singleton_eq_iff.1 h with ⟨rfl, rfl, _⟩ | ⟨after', rfl, hl⟩
    · exact .inl hp
    · refine .inr ⟨⟨before, b, after', hl, hp, fun b hb => hq b ?_⟩, hq a ?_⟩
      · exact List.mem_append_left _ hb
      · simp
  · rintro (hp | ⟨⟨before, b, after, rfl, hp, hq⟩, ha⟩)
    · exact ⟨l, a, [], rfl, hp, by simp⟩
    · refine ⟨before, b, after ++ [a], by simp, hp, fun b hb => ?_⟩
      rcases List.mem_append.1 hb with hb | hb
      · exact hq b hb
      · rwa [List.mem_singleton.1 hb]

/-- Happenings of which none makes up for another count together. -/
theorem pending_append {l' : List α} (h : l'.any p = false ∨ l'.any q = false) :
    Pending p q (l ++ l') ↔ l'.any p ∨ Pending p q l ∧ l'.any q = false := by
  induction l' generalizing l with
  | nil => simp
  | cons a l' ih =>
    simp only [List.any_cons, Bool.or_eq_false_iff] at h
    rw [List.append_cons, ih (h.imp And.right And.right), pending_append_singleton]
    simp only [List.any_cons, Bool.or_eq_true, Bool.or_eq_false_iff]
    grind

end Pending

end EmbeddedC
