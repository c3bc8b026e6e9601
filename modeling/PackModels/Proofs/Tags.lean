/-!
Contract: values under distinct keys are told apart by their tags.

Whoever keeps values under keys and gives each new one a tag above all tags
given so far never gives one tag to two keys. Instances are kept so while
models are read and while they are baked, and groups while looks are numbered.
-/

namespace PackModels

/-- The values found under keys have tags from one to `last`, and no two keys
have values of one tag. -/
structure Tagged {Key Value : Type} (tag : Value → Nat) (find : Key → Option Value)
    (last : Nat) : Prop where
  positive : ∀ key value, find key = some value → 0 < tag value
  bounded : ∀ key value, find key = some value → tag value ≤ last
  apart : ∀ left right value value', find left = some value → find right = some value' →
    tag value = tag value' → left = right

namespace Tagged

variable {Key Value : Type} {tag : Value → Nat} {find find' : Key → Option Value}
  {last last' : Nat}

theorem of_nothing (nothing : ∀ key, find key = none) : Tagged tag find last := by
  have absurdly : ∀ {key : Key} {value : Value}, find key ≠ some value := by
    intro key value found
    rw [nothing] at found
    cases found
  refine ⟨?_, ?_, ?_⟩
  · intro key value found
    exact absurd found absurdly
  · intro key value found
    exact absurd found absurdly
  · intro left right value value' found
    exact absurd found absurdly

/-- Tags may be left out. -/
theorem mono (tagged : Tagged tag find last) (more : last ≤ last') : Tagged tag find last' where
  positive := tagged.positive
  bounded := by
    intro key value found
    have bound := tagged.bounded key value found
    omega
  apart := tagged.apart

/-- A value with a tag above all others is put under a key. -/
theorem insert (tagged : Tagged tag find last) {key : Key} {value : Value}
    (above : last < tag value) (here : find' key = some value)
    (elsewhere : ∀ other, other ≠ key → find' other = find other) :
    Tagged tag find' (tag value) := by
  -- Whatever is found is the new value, or was found before.
  have known : ∀ other held, find' other = some held →
      (other = key ∧ held = value) ∨ find other = some held := by
    intro other held found
    by_cases same : other = key
    · rw [same, here] at found
      exact .inl ⟨same, (Option.some.inj found).symm⟩
    · rw [elsewhere other same] at found
      exact .inr found
  refine ⟨?positive, ?bounded, ?apart⟩
  case positive =>
    intro other held found
    rcases known other held found with ⟨_, rfl⟩ | before
    · omega
    · exact tagged.positive other held before
  case bounded =>
    intro other held found
    rcases known other held found with ⟨_, rfl⟩ | before
    · omega
    · have bound := tagged.bounded other held before
      omega
  case apart =>
    intro left right held held' foundLeft foundRight same
    rcases known left held foundLeft with ⟨isKey, isValue⟩ | beforeLeft
    · rcases known right held' foundRight with ⟨isKey', _⟩ | beforeRight
      · rw [isKey, isKey']
      · have bound := tagged.bounded right held' beforeRight
        rw [isValue] at same
        omega
    · rcases known right held' foundRight with ⟨_, isValue⟩ | beforeRight
      · have bound := tagged.bounded left held beforeLeft
        rw [isValue] at same
        omega
      · exact tagged.apart left right held held' beforeLeft beforeRight same

end Tagged

end PackModels
