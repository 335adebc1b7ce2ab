import DocQuery.Proofs.Journal.Capturing
/-!
# Lines under several guards

A thread may hold several guards, and yet it has one buffer. Enabling anew empties it and dropping
any guard ends it, so a line that is told while a guard lives may be lost although this guard lives
on (`newer_guard_takes_line`). What becomes of a line depends on all guards of the thread: it is
given by the next drain if no guard was dropped since the thread last enabled before the line and
nothing is enabled or dropped between the line and the drain, and else it leaves no trace
(`line_kept_or_lost`).
-/
namespace DocQuery.Capture

/-- What a drain gives behind the deeds. -/
def drained (deeds : List Deed) : List String :=
  (({} : Capture).after deeds).drain.1

/-- Nothing is enabled and no guard dropped. -/
def Undisturbed (deeds : List Deed) : Prop :=
  .enable ∉ deeds ∧ ∀ guard, .drop guard ∉ deeds

variable {before between : List Deed} {w : Work}

/-- Behind work a thread listens if it listened without it. -/
theorem listening_work :
    Listening (before ++ .work w :: between) ↔ Listening (before ++ between) := by
  induction between using List.reverseRecOn with
  | nil => simp [listening_concat]
  | append_singleton between d ih =>
    rw [← List.cons_append, ← List.append_assoc, ← List.append_assoc, listening_concat,
      listening_concat, ih]

/-- Where nothing is enabled, a thread that listens has done so all the time. -/
theorem listening_append_iff (kept : .enable ∉ between) :
    Listening (before ++ between) ↔ Listening before ∧ ∀ guard, .drop guard ∉ between := by
  induction between using List.reverseRecOn with
  | nil => simp
  | append_singleton between d ih =>
    simp only [List.mem_append, List.mem_singleton, not_or] at kept
    obtain ⟨earlier, last⟩ := kept
    rw [← List.append_assoc, listening_concat, ih earlier]
    simp only [Ne.symm last, false_or, List.mem_append, List.mem_singleton, not_or, forall_and,
      and_assoc, ne_eq, eq_comm]

theorem news_append (kept : ∀ d ∈ between, d.empties = false) :
    news (before ++ between) = news before ++ between.flatMap Deed.lines := by
  induction between using List.reverseRecOn with
  | nil => simp
  | append_singleton between d ih =>
    have earlier := ih fun e member => kept e (List.mem_append_left _ member)
    rw [← List.append_assoc, news_concat, kept d (by simp), earlier]
    simp

/-- What was told before the buffer was emptied is no news. -/
theorem news_append_of_emptied (emptied : ∃ d ∈ between, d.empties = true) :
    news (before ++ between) = news between := by
  induction between using List.reverseRecOn with
  | nil => simp at emptied
  | append_singleton between d ih =>
    rw [← List.append_assoc, news_concat, news_concat]
    by_cases last : d.empties = true
    · rw [if_pos last, if_pos last]
    · have earlier : ∃ e ∈ between, e.empties = true := by simpa [last] using emptied
      rw [if_neg last, if_neg last, ih earlier]

/-- Work can be taken out of a history in which guards are dropped by who holds them. -/
theorem Owned.without_work (owned : Owned (before ++ .work w :: between)) :
    Owned (before ++ between) := by
  induction between using List.reverseRecOn with
  | nil => simpa using ((owned_concat before (.work w)).mp owned).1
  | append_singleton between d ih =>
    rw [← List.cons_append, ← List.append_assoc, owned_concat] at owned
    obtain ⟨earlier, last⟩ := owned
    rw [← List.append_assoc, owned_concat]
    refine ⟨ih earlier, fun guard dropped => ?_⟩
    obtain ⟨obtained, kept⟩ := last guard dropped
    constructor
    · simpa [Deed.isEnable] using obtained
    · simpa using kept

/-- What the next drain gives of the lines of a piece of work, whatever guards the thread holds. If
no guard was dropped since the thread last enabled before the work, and nothing is enabled or
dropped between the work and the drain, then all of them are given, at their place among the news.
Else the drain gives what it would give without the work. -/
theorem line_kept_or_lost (owned : Owned (before ++ .work w :: between))
    (undrained : .drain ∉ between) :
    (Listening before ∧ Undisturbed between → drained (before ++ .work w :: between) =
      news before ++ w.lines ++ between.flatMap Deed.lines) ∧
    (¬ (Listening before ∧ Undisturbed between) →
      drained (before ++ .work w :: between) = drained (before ++ between)) := by
  obtain ⟨on, off⟩ := drain_after owned
  obtain ⟨onWithout, offWithout⟩ := drain_after owned.without_work
  constructor
  · rintro ⟨listening, unenabled, undropped⟩
    have still : Listening (before ++ .work w :: between) :=
      listening_work.mpr ((listening_append_iff unenabled).mpr ⟨listening, undropped⟩)
    have full : ∀ d ∈ .work w :: between, d.empties = false := by
      intro d member
      cases d with
      | enable => exact absurd (by simpa using member) unenabled
      | drain => exact absurd (by simpa using member) undrained
      | drop guard => rfl
      | work w => rfl
    rw [drained, on still, news_append full, List.flatMap_cons, List.append_assoc]
    rfl
  · intro disturbed
    by_cases listening : Listening (before ++ between)
    · -- The thread still listens, so what disturbed it was enabling anew.
      have enabled : .enable ∈ between := by
        by_contra unenabled
        obtain ⟨earlier, undropped⟩ := (listening_append_iff unenabled).mp listening
        exact disturbed ⟨earlier, unenabled, undropped⟩
      have emptied : ∃ d ∈ between, d.empties = true := ⟨.enable, enabled, rfl⟩
      rw [drained, on (listening_work.mpr listening), drained, onWithout listening,
        List.append_cons before, news_append_of_emptied emptied, news_append_of_emptied emptied]
    · rw [drained, off (fun still => listening (listening_work.mp still)), drained,
        offWithout listening]

/-- The first guard was dropped before the second one was obtained, and nothing happens to the
second one. -/
theorem line_kept_under_second_guard :
    let before : List Deed := [.enable, .drop 0, .enable, .work (.record "é")]
    let between : List Deed := [.work (.trace "y")]
    Owned (before ++ .work (.record "x") :: between) ∧ .drain ∉ between ∧
      drained (before ++ .work (.record "x") :: between) = ["é", "x", "y"] := by
  intro before between
  have owned : Owned (before ++ .work (.record "x") :: between) := by
    intro earlier guard later split
    have found : earlier = [.enable] ∧ guard = 0 ∧
        later = .enable :: .work (.record "é") :: .work (.record "x") :: between := by
      simpa [before, between, List.cons_eq_append_iff] using split
    obtain ⟨rfl, rfl, _⟩ := found
    exact ⟨by decide, by simp⟩
  have undrained : .drain ∉ between := by simp [between]
  have listening : Listening before :=
    ⟨[.enable, .drop 0], [.work (.record "é")], rfl, by simp⟩
  have undisturbed : Undisturbed between := ⟨by simp [between], by simp [between]⟩
  exact ⟨owned, undrained, (line_kept_or_lost owned undrained).1 ⟨listening, undisturbed⟩⟩

/-- A thread tells a line while it holds its first guard, and still holds that guard when it drains.
Yet the drain does not give the line if a second guard was dropped before it was told, or if a
second guard is obtained after it. -/
theorem newer_guard_takes_line :
    let dropped : List Deed := [.enable, .enable, .drop 1, .work (.record "x")]
    let enabled : List Deed := [.enable, .work (.record "x"), .enable]
    (Owned dropped ∧ 0 ∈ (({} : Capture).after (dropped.take 3)).guards ∧
      0 ∈ (({} : Capture).after dropped).guards ∧ drained dropped = []) ∧
    (Owned enabled ∧ 0 ∈ (({} : Capture).after (enabled.take 1)).guards ∧
      0 ∈ (({} : Capture).after enabled).guards ∧ drained enabled = []) := by
  intro dropped enabled
  have first : Owned dropped := by
    intro earlier guard later split
    have found : earlier = [.enable, .enable] ∧ guard = 1 ∧ later = dropped.drop 3 := by
      simpa [dropped, List.cons_eq_append_iff] using split
    obtain ⟨rfl, rfl, _⟩ := found
    exact ⟨by decide, by simp⟩
  have second : Owned enabled := by
    intro earlier guard later split
    have member : .drop guard ∈ enabled := by simp [split]
    simp [enabled] at member
  exact ⟨⟨first, by decide, by decide, by decide⟩, second, by decide, by decide, by decide⟩

end DocQuery.Capture
