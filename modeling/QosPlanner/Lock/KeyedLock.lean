import Mathlib

/-!
# A lock for each key

A set of held keys guarded by one mutex, with one condition variable: a thread that
wants a key tests the set, and either takes the key or goes to sleep until somebody
releases a key; a release wakes all sleepers. Sleepers may also wake for no reason.

Each step of the machine is one section under the mutex. Whatever the order of the
steps, a key has at most one holder, the set is exactly the keys that are held, and a
sleeper sleeps for a key that another thread holds, who is awake (`Sound.step`,
`Sound.holder`).
-/

namespace Lock
set_option autoImplicit false

/-- Where a thread is. -/
inductive Phase (K : Type*) where
  | out
  | wanting (k : K)
  | holding (k : K)

structure KeyedLock (T K : Type*) where
  /-- The keys in the set. -/
  held : Finset K
  /-- The threads asleep on the condition variable. -/
  asleep : Finset T
  phase : T → Phase K

variable {T K : Type*}

/-- The lock's invariant. -/
structure Sound (s : KeyedLock T K) : Prop where
  held_iff : ∀ k, k ∈ s.held ↔ ∃ t, s.phase t = .holding k
  exclusive : ∀ (t t' : T) (k : K), s.phase t = .holding k → s.phase t' = .holding k → t = t'
  asleep : ∀ t ∈ s.asleep, ∃ k ∈ s.held, s.phase t = .wanting k

theorem sound_init : Sound (⟨∅, ∅, fun _ => .out⟩ : KeyedLock T K) where
  held_iff := by simp
  exclusive := by simp
  asleep := by simp

/-- **No wait cycles.** A sleeper waits for another thread, who holds the key and is awake. -/
theorem Sound.holder {s : KeyedLock T K} (sound : Sound s) {t : T} (sleeps : t ∈ s.asleep) :
    ∃ (k : K) (t' : T), s.phase t = .wanting k ∧ t' ≠ t ∧ s.phase t' = .holding k ∧ t' ∉ s.asleep := by
  obtain ⟨k, held, wants⟩ := sound.asleep t sleeps
  obtain ⟨t', holds⟩ := (sound.held_iff k).1 held
  refine ⟨k, t', wants, ?_, holds, fun sleeps' => ?_⟩
  · rintro rfl
    simp [wants] at holds
  · obtain ⟨k', -, wants'⟩ := sound.asleep t' sleeps'
    simp [holds] at wants'

variable [DecidableEq T] [DecidableEq K]

/-- The sections under the mutex. -/
inductive Step (s : KeyedLock T K) : KeyedLock T K → Prop
  | enter (t : T) (k : K) (out : s.phase t = .out) :
      Step s { s with phase := Function.update s.phase t (.wanting k) }
  | sleep (t : T) (k : K) (wants : s.phase t = .wanting k) (taken : k ∈ s.held) :
      Step s { s with asleep := insert t s.asleep }
  | acquire (t : T) (k : K) (wants : s.phase t = .wanting k) (awake : t ∉ s.asleep) (free : k ∉ s.held) :
      Step s { s with held := insert k s.held, phase := Function.update s.phase t (.holding k) }
  | wake (t : T) : Step s { s with asleep := s.asleep.erase t }
  | release (t : T) (k : K) (holds : s.phase t = .holding k) :
      Step s ⟨s.held.erase k, ∅, Function.update s.phase t .out⟩

/-- A step of the lock keeps it sound. -/
theorem Sound.step {s s' : KeyedLock T K} (sound : Sound s) (taken : Step s s') : Sound s' := by
  cases taken with
  | enter t k out =>
    have other : ∀ (u : T) (k' : K), Function.update s.phase t (.wanting k) u = .holding k' ↔
        s.phase u = .holding k' := by
      intro u k'
      by_cases same : u = t
      · subst same; simp [out]
      · simp [same]
    refine ⟨fun k' => ?_, fun u u' k' holds holds' => ?_, fun u sleeps => ?_⟩
    · simp only [other]
      exact sound.held_iff k'
    · exact sound.exclusive u u' k' ((other u k').1 holds) ((other u' k').1 holds')
    · obtain ⟨k', held, wants⟩ := sound.asleep u sleeps
      have : u ≠ t := by rintro rfl; simp [out] at wants
      exact ⟨k', held, by simp [this, wants]⟩
  | sleep t k wants taken =>
    refine ⟨sound.held_iff, sound.exclusive, fun u sleeps => ?_⟩
    rcases Finset.mem_insert.1 sleeps with rfl | sleeps
    · exact ⟨k, taken, wants⟩
    · exact sound.asleep u sleeps
  | acquire t k wants awake free =>
    have other : ∀ (u : T) (k' : K), Function.update s.phase t (.holding k) u = .holding k' ↔
        (u = t ∧ k' = k) ∨ s.phase u = .holding k' := by
      intro u k'
      by_cases same : u = t
      · subst same; simp [wants, eq_comm]
      · simp [same]
    have unheld : ∀ u, s.phase u ≠ .holding k := fun u holds => free ((sound.held_iff k).2 ⟨u, holds⟩)
    refine ⟨fun k' => ?_, fun u u' k' holds holds' => ?_, fun u sleeps => ?_⟩
    · simp only [other, Finset.mem_insert, sound.held_iff]
      constructor
      · rintro (rfl | ⟨u, holds⟩)
        · exact ⟨t, Or.inl ⟨rfl, rfl⟩⟩
        · exact ⟨u, Or.inr holds⟩
      · rintro ⟨u, ⟨-, rfl⟩ | holds⟩
        · exact Or.inl rfl
        · exact Or.inr ⟨u, holds⟩
    · rcases (other u k').1 holds with ⟨first, same⟩ | holds <;>
      rcases (other u' k').1 holds' with ⟨second, same'⟩ | holds'
      · rw [first, second]
      · exact absurd (same ▸ holds') (unheld u')
      · exact absurd (same' ▸ holds) (unheld u)
      · exact sound.exclusive u u' k' holds holds'
    · obtain ⟨k', held, wanted⟩ := sound.asleep u sleeps
      have : u ≠ t := by rintro rfl; exact awake sleeps
      exact ⟨k', Finset.mem_insert_of_mem held, by simp [this, wanted]⟩
  | wake t => exact ⟨sound.held_iff, sound.exclusive, fun u sleeps => sound.asleep u (Finset.mem_of_mem_erase sleeps)⟩
  | release t k holds =>
    have other : ∀ (u : T) (k' : K), Function.update s.phase t .out u = .holding k' ↔
        k' ≠ k ∧ s.phase u = .holding k' := by
      intro u k'
      by_cases same : u = t
      · subst same; simp [holds, eq_comm]
      · simp only [Function.update_of_ne same]
        refine ⟨fun held => ⟨?_, held⟩, And.right⟩
        rintro rfl
        exact same (sound.exclusive u t k' held holds)
    refine ⟨fun k' => ?_, fun u u' k' held held' => ?_, by simp⟩
    · simp only [other, Finset.mem_erase, sound.held_iff, exists_and_left]
    · exact sound.exclusive u u' k' ((other u k').1 held).2 ((other u' k').1 held').2

/-- So do any number of steps, or none. -/
theorem Sound.steps {s s' : KeyedLock T K} (sound : Sound s) (taken : Relation.ReflTransGen Step s s') :
    Sound s' := by
  induction taken with
  | refl => exact sound
  | tail _ last ih => exact ih.step last

end Lock
