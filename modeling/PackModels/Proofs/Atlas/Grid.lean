import PackModels.Atlas.Grid
import PackModels.Proofs.Atlas.Tiles
import PackModels.Proofs.Sorted

/-!
Contract: which texture is on which tile of an atlas, and which is on none.

The textures other than the missing one, in increasing order and each once,
take the tiles from one on. There is a tile for each of the first 4095 of them,
and a warning for each of the others. No number of a tile needs more than its
sixteen bits, so no two textures share a tile, and the missing texture keeps
tile zero for itself.

Owns: `Placed`, what holds of a layout after each texture.
-/

namespace PackModels.Grid

/-! ## The order of the textures -/

variable {atlas texture : ResourceId} {textures others names : List ResourceId}

theorem mem_order_iff :
    texture ∈ order textures ↔ texture ∈ textures ∧ texture ≠ Material.missingTexture := by
  rw [order, Std.ExtTreeSet.mem_toList, Std.ExtTreeSet.mem_erase, Roster.mem_foldl_insert,
    ne_eq, Std.compare_eq_iff_eq, and_comm, eq_comm]
  simp

theorem increasing_order (textures : List ResourceId) : Increasing id (order textures) :=
  Roster.increasing_toList _

theorem nodup_order (textures : List ResourceId) : (order textures).Nodup := by
  simpa using (increasing_order textures).nodup

/-- Textures in any order and with any repetitions are laid out alike. -/
theorem order_congr (same : ∀ texture, texture ∈ others ↔ texture ∈ textures) :
    order others = order textures := by
  apply (increasing_order others).eq_of_perm (increasing_order textures)
  rw [List.perm_ext_iff_of_nodup (nodup_order others) (nodup_order textures)]
  intro texture
  rw [mem_order_iff, mem_order_iff, same]

/-! ## One texture after another -/

theorem getElem?_concat_eq_some_iff {position : Nat} {other : ResourceId} :
    (names ++ [texture])[position]? = some other ↔
      names[position]? = some other ∨ (position = names.length ∧ other = texture) := by
  rcases Nat.lt_trichotomy position names.length with inside | rfl | outside
  · rw [List.getElem?_append_left inside]
    simp [Nat.ne_of_lt inside]
  · rw [List.getElem?_concat_length, List.getElem?_length]
    simp [eq_comm]
  · have beyond : (names ++ [texture]).length ≤ position := by
      rwa [List.length_append, List.length_singleton]
    rw [List.getElem?_eq_none beyond, List.getElem?_eq_none (Nat.le_of_lt outside)]
    simp [Nat.ne_of_gt outside]

/-- What holds of a layout when the textures of `names` have been laid out. -/
structure Placed (atlas : ResourceId) (names : List ResourceId) (layout : Layout) : Prop where
  next : layout.nextTile = min (names.length + 1) Sprite.capacity
  held : ∀ texture sprite, layout.sprites[texture]? = some sprite ↔
    ∃ position, names[position]? = some texture ∧ position + 1 < Sprite.capacity ∧
      sprite = Sprite.onTile atlas texture (position + 1).toUInt16
  dropped : layout.warnings =
    (names.drop (Sprite.capacity - 1)).map (fun texture => .atlasFull atlas texture)

namespace Placed

theorem start (atlas : ResourceId) : Placed atlas [] .start := by
  refine ⟨by decide, ?_, rfl⟩
  intro texture sprite
  simp [Layout.start]

/-- A texture that finds no tile left changes nothing else. -/
theorem drop {layout : Layout} (placed : Placed atlas names layout)
    (full : Sprite.capacity ≤ layout.nextTile) :
    Placed atlas (names ++ [texture]) (layout.place atlas texture) := by
  have many : Sprite.capacity ≤ names.length + 1 := by
    have next := placed.next
    omega
  unfold Layout.place
  rw [if_pos full]
  refine ⟨?next, ?held, ?dropped⟩
  case next =>
    have next := placed.next
    rw [List.length_append, List.length_singleton]
    dsimp only
    omega
  case held =>
    intro other sprite
    rw [placed.held]
    -- A place below the capacity is one of those that were there before.
    refine exists_congr fun position => and_congr_left fun below => ?_
    rw [List.getElem?_append_left (by omega)]
  case dropped =>
    dsimp only
    rw [placed.dropped, List.drop_append_of_le_length (by omega), List.map_append]
    rfl

/-- A texture that finds a tile left takes the next one. -/
theorem keep {layout : Layout} (placed : Placed atlas names layout) (new : texture ∉ names)
    (free : layout.nextTile < Sprite.capacity) :
    Placed atlas (names ++ [texture]) (layout.place atlas texture) := by
  have next : layout.nextTile = names.length + 1 := by
    have next := placed.next
    omega
  unfold Layout.place
  rw [if_neg (Nat.not_le.mpr free)]
  refine ⟨?next, ?held, ?dropped⟩
  case next =>
    rw [List.length_append, List.length_singleton]
    dsimp only
    omega
  case held =>
    intro other sprite
    simp only [getElem?_concat_eq_some_iff, or_and_right, exists_or]
    rw [← placed.held]
    by_cases same : other = texture
    · subst same
      have absent : layout.sprites[other]? ≠ some sprite := by
        intro before
        obtain ⟨position, isPlace, _⟩ := (placed.held other sprite).mp before
        exact new (List.mem_of_getElem? isPlace)
      rw [Std.ExtTreeMap.getElem?_insert_self, Option.some.injEq, or_iff_right absent]
      constructor
      · rintro rfl
        exact ⟨names.length, ⟨rfl, rfl⟩, next ▸ free, by rw [next]⟩
      · rintro ⟨position, ⟨rfl, _⟩, _, rfl⟩
        rw [next]
    · rw [Table.getElem?_insert_of_ne same]
      simp [same]
  case dropped =>
    dsimp only
    rw [placed.dropped, List.drop_eq_nil_of_le (by omega), List.drop_eq_nil_of_le]
    rw [List.length_append, List.length_singleton]
    omega

/-- A texture that was not laid out yet is laid out or dropped. -/
theorem place {layout : Layout} (placed : Placed atlas names layout) (new : texture ∉ names) :
    Placed atlas (names ++ [texture]) (layout.place atlas texture) := by
  by_cases full : Sprite.capacity ≤ layout.nextTile
  · exact placed.drop full
  · exact placed.keep new (Nat.not_le.mp full)

theorem foldl {layout : Layout} (placed : Placed atlas names layout) {rest : List ResourceId}
    (distinct : (names ++ rest).Nodup) :
    Placed atlas (names ++ rest) (rest.foldl (Layout.place atlas) layout) := by
  induction rest generalizing names layout with
  | nil => rwa [List.append_nil]
  | cons texture rest inductionHypothesis =>
      have new : texture ∉ names := by
        intro before
        exact (List.nodup_append.mp distinct).2.2 texture before texture List.mem_cons_self rfl
      have regroup : names ++ texture :: rest = (names ++ [texture]) ++ rest := by simp
      rw [regroup] at distinct ⊢
      exact inductionHypothesis (placed.place new) distinct

end Placed

theorem placed_build (atlas : ResourceId) (textures : List ResourceId) :
    Placed atlas (order textures)
      ((order textures).foldl (Layout.place atlas) .start) :=
  (Placed.start atlas).foldl (nodup_order textures)

/-! ## Where a texture is -/

/-- A texture that is looked for, with the tile it is on: the missing texture is
on tile zero, and another one on the tile after its place among the textures. -/
structure OnTile (names : List ResourceId) (texture : ResourceId) (number : UInt16) : Prop where
  inside : number.toNat < Sprite.capacity
  place : (texture = Material.missingTexture ∧ number.toNat = 0) ∨
    ∃ position, names[position]? = some texture ∧ number.toNat = position + 1

/-- Different textures are on different tiles. -/
theorem OnTile.apart {number number' : UInt16} {other : ResourceId}
    (onTile : OnTile names texture number) (onTile' : OnTile names other number')
    (different : texture ≠ other) : number.toNat ≠ number'.toNat := by
  intro same
  rcases onTile.place with ⟨missing, zero⟩ | ⟨position, isPlace, isTile⟩
  · rcases onTile'.place with ⟨missing', _⟩ | ⟨position', _, isTile'⟩
    · exact different (missing.trans missing'.symm)
    · omega
  · rcases onTile'.place with ⟨_, zero'⟩ | ⟨position', isPlace', isTile'⟩
    · omega
    · obtain rfl : position = position' := by omega
      exact different (Option.some.inj (isPlace.symm.trans isPlace'))

/-- The number of a tile is not shortened when it is stored. -/
theorem toNat_toUInt16 {tile : Nat} (inside : tile < Sprite.capacity) :
    tile.toUInt16.toNat = tile :=
  UInt16.toNat_ofNat_of_lt' (Nat.lt_trans inside (by decide))

theorem sprite?_missing :
    (build atlas textures).1.sprite? Material.missingTexture =
      some (Sprite.onTile atlas Material.missingTexture 0) := by
  rw [Atlas.sprite?, if_pos rfl]
  rfl

theorem sprite?_iff_of_ne {sprite : Sprite} (other : texture ≠ Material.missingTexture) :
    (build atlas textures).1.sprite? texture = some sprite ↔
      ∃ position, (order textures)[position]? = some texture ∧
        position + 1 < Sprite.capacity ∧
        sprite = Sprite.onTile atlas texture (position + 1).toUInt16 := by
  rw [Atlas.sprite?, if_neg other]
  exact (placed_build atlas textures).held texture sprite

/-- Whatever an atlas answers is the sprite of a tile. -/
theorem exists_onTile {sprite : Sprite}
    (found : (build atlas textures).1.sprite? texture = some sprite) :
    ∃ number, sprite = Sprite.onTile atlas texture number ∧
      OnTile (order textures) texture number := by
  by_cases missing : texture = Material.missingTexture
  · subst missing
    rw [sprite?_missing, Option.some.injEq] at found
    exact ⟨0, found.symm, by decide, .inl ⟨rfl, rfl⟩⟩
  · obtain ⟨position, isPlace, below, isSprite⟩ := (sprite?_iff_of_ne missing).mp found
    have number := toNat_toUInt16 below
    exact ⟨_, isSprite, number.symm ▸ below, .inr ⟨position, isPlace, number⟩⟩

/-- What an atlas makes of its textures, in increasing order: the first 4095 are
on the tiles from one on, and each of the others is dropped with a warning. -/
structure LaidOut (atlas : ResourceId) (names : List ResourceId)
    (built : Atlas × List Warning) : Prop where
  kept : ∀ (position : Nat) texture, names[position]? = some texture → position + 1 ≤ 4095 →
    ∃ sprite, built.1.sprite? texture = some sprite ∧ sprite.tile = position + 1 ∧
      sprite.name = texture ∧ sprite.atlas = atlas
  dropped : ∀ (position : Nat) texture, names[position]? = some texture → 4095 < position + 1 →
    built.1.sprite? texture = none
  complaints : built.2 = (names.drop 4095).map (fun texture => .atlasFull atlas texture)
  missing : ∃ sprite, built.1.sprite? Material.missingTexture = some sprite ∧ sprite.tile = 0 ∧
    sprite.name = Material.missingTexture ∧ sprite.atlas = atlas
  unasked : ∀ texture, texture ∉ names → texture ≠ Material.missingTexture →
    built.1.sprite? texture = none

/-- Different sprites of an atlas are in different cells, and no point of the
atlas belongs to two of them. -/
structure Tiled (atlas : Atlas) : Prop where
  inside : ∀ texture sprite, atlas.sprite? texture = some sprite →
    (Sprite.cell sprite.tile).1 < 64 ∧ (Sprite.cell sprite.tile).2 < 64 ∧
      sprite.area.Nonempty ∧ sprite.area ⊆ Set.Ico 0 1 ×ˢ Set.Ico 0 1
  apart : ∀ texture other sprite sprite', atlas.sprite? texture = some sprite →
    atlas.sprite? other = some sprite' → texture ≠ other →
      Sprite.cell sprite.tile ≠ Sprite.cell sprite'.tile ∧ sprite.area ∩ sprite'.area = ∅

theorem laidOut_build (atlas : ResourceId) (textures : List ResourceId) :
    LaidOut atlas (order textures) (build atlas textures) where
  kept := by
    intro position texture isPlace below
    have inside : position + 1 < Sprite.capacity := Nat.lt_succ_of_le below
    have other := (mem_order_iff.mp (List.mem_of_getElem? isPlace)).2
    exact ⟨_, (sprite?_iff_of_ne other).mpr ⟨position, isPlace, inside, rfl⟩,
      toNat_toUInt16 inside, rfl, rfl⟩
  dropped := by
    intro position texture isPlace above
    have other := (mem_order_iff.mp (List.mem_of_getElem? isPlace)).2
    apply Option.eq_none_iff_forall_ne_some.mpr
    intro sprite found
    obtain ⟨position', isPlace', below, _⟩ := (sprite?_iff_of_ne other).mp found
    obtain ⟨inside, isTexture⟩ := List.getElem?_eq_some_iff.mp isPlace
    obtain ⟨inside', isTexture'⟩ := List.getElem?_eq_some_iff.mp isPlace'
    have same : position = position' :=
      (nodup_order textures).getElem_inj_iff.mp (isTexture.trans isTexture'.symm)
    have limit : Sprite.capacity = 4096 := rfl
    omega
  complaints := (placed_build atlas textures).dropped
  missing := ⟨_, sprite?_missing, rfl, rfl, rfl⟩
  unasked := by
    intro texture unlisted other
    apply Option.eq_none_iff_forall_ne_some.mpr
    intro sprite found
    obtain ⟨position, isPlace, _⟩ := (sprite?_iff_of_ne other).mp found
    exact unlisted (List.mem_of_getElem? isPlace)

theorem tiled_build (atlas : ResourceId) (textures : List ResourceId) :
    Tiled (build atlas textures).1 where
  inside := by
    intro texture sprite found
    obtain ⟨number, rfl, onTile⟩ := exists_onTile found
    obtain ⟨column, row⟩ := Sprite.cell_lt onTile.inside
    exact ⟨column, row, Sprite.area_onTile onTile.inside⟩
  apart := by
    intro texture other sprite sprite' found found' different
    obtain ⟨number, rfl, onTile⟩ := exists_onTile found
    obtain ⟨number', rfl, onTile'⟩ := exists_onTile found'
    have apart := onTile.apart onTile' different
    exact ⟨fun same => apart (Sprite.eq_of_cell_eq same),
      Sprite.area_onTile_inter onTile.inside onTile'.inside apart⟩

/-- An atlas depends only on the set of its textures. These, in increasing order
and without the missing one, are laid out on the tiles from one on as far as
there are any, and no two sprites share a part of the atlas. -/
theorem build_exact (atlas : ResourceId) (textures : List ResourceId) :
    (∀ others, (∀ texture, texture ∈ others ↔ texture ∈ textures) →
      build atlas others = build atlas textures) ∧
    (∃ names, Increasing id names ∧
      (∀ texture, texture ∈ names ↔
        texture ∈ textures ∧ texture ≠ Material.missingTexture) ∧
      LaidOut atlas names (build atlas textures)) ∧
    Tiled (build atlas textures).1 := by
  refine ⟨?set, ⟨order textures, increasing_order textures, fun _ => mem_order_iff,
    laidOut_build atlas textures⟩, tiled_build atlas textures⟩
  case set =>
    intro others same
    rw [build, build, order_congr same]

end PackModels.Grid
