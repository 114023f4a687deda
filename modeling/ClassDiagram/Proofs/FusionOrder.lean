import ClassDiagram.Proofs.Fusion
import ClassDiagram.Proofs.Resolution

/-!
# The order of fusing three diagrams

Three diagrams of declared entities can be fused from the left or from the
right. Either way fails exactly if two of the three declare a name as
different kinds. Where both succeed the tables agree, while an end may still
be a bare name on one way and its declaration on the other, which is what
resolution removes.
-/

namespace ClassDiagram

/-! ## Kinds under common keys -/

/-- Two kinds, if there are two, are the same. -/
def Agree (k l : Option EntityKind) : Prop :=
  ∀ x ∈ k, ∀ y ∈ l, x = y

/-- Three kinds agree pairwise, in whichever order they are compared. -/
theorem agree_or_iff (k l m : Option EntityKind) :
    Agree k l ∧ Agree (k.or l) m ↔ Agree l m ∧ Agree k (l.or m) := by
  cases k <;> cases l <;> cases m <;> simp [Agree]
  constructor
  · rintro ⟨rfl, rfl⟩
    exact ⟨rfl, rfl⟩
  · rintro ⟨rfl, rfl⟩
    exact ⟨rfl, rfl⟩

namespace Table

/-- The kind under a key. -/
def kind? (t : Table Entity) (key : String) : Option EntityKind :=
  (t.get? key).map (·.kind)

/-- Every entity is declared. -/
def AllDeclared (t : Table Entity) : Prop :=
  ∀ e ∈ t.values, e.isPlaceholder = false

instance (t : Table Entity) : Decidable t.AllDeclared :=
  inferInstanceAs (Decidable (∀ e ∈ t.values, e.isPlaceholder = false))

theorem allDeclared_iff (t : Table Entity) :
    t.AllDeclared ↔ ∀ key e, t.get? key = some e → e.isPlaceholder = false := by
  simp only [AllDeclared, values, List.forall_mem_map, ← mem_entries_iff, Prod.forall]

theorem compatible_iff {t u : Table Entity} (ht : t.AllDeclared) (hu : u.AllDeclared) :
    t.Compatible u ↔ ∀ key, Agree (t.kind? key) (u.kind? key) := by
  rw [allDeclared_iff] at ht hu
  apply forall_congr'
  intro key
  cases he : t.get? key with
  | none => simp [kind?, he, Agree]
  | some e =>
      cases ho : u.get? key with
      | none => simp [kind?, ho, Agree]
      | some other =>
          simp [kind?, he, ho, Agree, Entity.exists_merge_iff, ht key e he, hu key other ho]

theorem IsFusion.kind? {t u fused : Table Entity} (h : t.IsFusion u fused) (ht : t.AllDeclared)
    (key : String) : fused.kind? key = (t.kind? key).or (u.kind? key) := by
  cases he : t.get? key with
  | some e =>
      obtain ⟨e', he', hk⟩ := h.kind he ((allDeclared_iff t).mp ht key e he)
      simp [Table.kind?, he, he', hk]
  | none => simp [Table.kind?, he, h.get?_of_right he]

theorem IsFusion.allDeclared {t u fused : Table Entity} (h : t.IsFusion u fused)
    (ht : t.AllDeclared) (hu : u.AllDeclared) : fused.AllDeclared := by
  rw [allDeclared_iff] at ht hu ⊢
  intro key merged hm
  have hj := h.get? key
  rw [hm] at hj
  generalize he : t.get? key = present at hj
  generalize ho : u.get? key = incoming at hj
  cases hj with
  | incoming => exact hu key merged ho
  | present => exact ht key merged he
  | both hmerge => rw [Entity.isPlaceholder_of_merge hmerge, ht key _ he, Bool.false_and]

/-! ## The table of three fused diagrams -/

theorem Joined.assoc {x y z xy yz left right : Option Entity}
    (hx : ∀ e ∈ x, e.isPlaceholder = false) (hy : ∀ e ∈ y, e.isPlaceholder = false)
    (hz : ∀ e ∈ z, e.isPlaceholder = false) (hxy : Joined x y xy) (hl : Joined xy z left)
    (hyz : Joined y z yz) (hr : Joined x yz right) : left = right := by
  cases hxy with
  | incoming =>
      cases hr
      cases hl <;> cases hyz <;> simp_all
  | present e =>
      cases hyz
      cases hl <;> cases hr <;> simp_all
  | @both e other merged hm =>
      cases hl with
      | present =>
          cases hyz
          cases hr
          simp_all
      | both hl =>
          cases hyz with
          | both hyz =>
              cases hr with
              | both hr =>
                  exact congrArg some (Entity.merge_assoc (hx e rfl) (hy other rfl)
                    (hz _ rfl) hm hl hyz hr)

/-- The tables of three diagrams are fused to the same table on both ways. -/
theorem IsFusion.assoc {t u v tu uv left right : Table Entity} (ht : t.AllDeclared)
    (hu : u.AllDeclared) (hv : v.AllDeclared) (htu : t.IsFusion u tu) (hl : tu.IsFusion v left)
    (huv : u.IsFusion v uv) (hr : t.IsFusion uv right) : left = right := by
  apply ext_get?
  · have hfilter : v.keys.filter (· ∉ tu.keys) =
        (v.keys.filter (· ∉ u.keys)).filter (· ∉ t.keys) := by
      rw [List.filter_filter]
      apply List.filter_congr
      intro key _
      simp only [htu.mem_keys_iff, not_or, Bool.decide_and]
    rw [hl.keys, hr.keys, hfilter, htu.keys, huv.keys, List.filter_append, List.append_assoc]
  · intro key
    rw [allDeclared_iff] at ht hu hv
    exact Joined.assoc (ht key) (hu key) (hv key) (htu.get? key) (hl.get? key)
      (huv.get? key) (hr.get? key)

end Table

namespace Diagram

/-! ## The ends of three fused diagrams -/

theorem retarget_ref {objects : Table Entity} {other : Diagram} {ref : Ref} {key : String}
    (h : other.key? ref = some key) : retarget objects other (.ref ref) = aim objects key := by
  simp only [retarget, h]
  rfl

theorem settle_aim (objects stubs t : Table Entity) (key : String) :
    settle objects stubs (aim t key) = aim t key := by
  cases hd : t.declared? key with
  | none => rw [aim_of_not_declared hd]; rfl
  | some index => rw [aim_of_declared? hd]; rfl

/-- A stub that has given way once gives way to the same declaration later. -/
theorem settle_settle {t u : Table Entity} (h : t.Grows u) (stubs : Table Entity) (e : Endpoint) :
    settle u stubs (settle t stubs e) = settle u stubs e := by
  cases e with
  | name _ => rfl
  | ref ref =>
      cases ref with
      | registered _ => rfl
      | stub index =>
          cases hd : (stubs.key? index).bind t.declared? with
          | none => simp only [settle, hd]
          | some position =>
              have hu : (stubs.key? index).bind u.declared? = some position := by
                obtain ⟨key, hk, hp⟩ := Option.bind_eq_some_iff.mp hd
                rw [hk, Option.bind_some]
                exact h.declared? hp
              simp only [settle, hd, hu]

/-- A name that was aimed in the incoming diagram is aimed again in the fusion. -/
theorem aimEnd_retarget_aim (objects : Table Entity) (other : Diagram) (key : String) :
    aimEnd objects (retarget objects other (aim other.objects key)) = aim objects key := by
  cases hd : other.objects.declared? key with
  | none => rw [aim_of_not_declared hd]; rfl
  | some index =>
      have hk : other.key? (.registered index) = some key := Table.key?_of_declared? hd
      rw [aim_of_declared? hd, retarget_ref hk, aimEnd_aim (Table.Grows.refl objects)]

/-- An end of the second diagram arrives at the same place on both ways. -/
theorem aimEnd_second {b c : Diagram} {ab bc abc stubs : Table Entity} (hab : ab.Grows abc)
    (hbc : b.objects.Grows bc) (hb : b.Closed) {e : Endpoint} (he : e ∈ b.endpoints) :
    aimEnd abc (settle abc stubs (retarget ab b e)) =
      aimEnd abc (retarget abc (b.fusedWith c bc) (settle bc b.stubs e)) := by
  cases e with
  | name _ => rfl
  | ref ref =>
      obtain ⟨key, hk⟩ := hb.key? he
      rw [retarget_ref hk, settle_aim, aimEnd_aim hab]
      have hsame {r : Ref} (hr : (b.fusedWith c bc).key? r = some key) :
          aim abc key = aimEnd abc (retarget abc (b.fusedWith c bc) (.ref r)) := by
        rw [retarget_ref hr, aimEnd_aim (Table.Grows.refl abc)]
      cases ref with
      | registered index => exact hsame (hbc.key? hk)
      | stub index =>
          have hs : b.stubs.key? index = some key := hk
          cases hd : bc.declared? key with
          | none =>
              simp only [settle, hs, Option.bind_some, hd]
              exact hsame hk
          | some position =>
              simp only [settle, hs, Option.bind_some, hd]
              exact hsame (Table.key?_of_declared? hd)

/-- An end of the third diagram arrives at the same place on both ways. -/
theorem aimEnd_third {b c : Diagram} {bc abc : Table Entity} (hc : c.Closed) {e : Endpoint}
    (he : e ∈ c.endpoints) :
    aimEnd abc (retarget abc c e) =
      aimEnd abc (retarget abc (b.fusedWith c bc) (retarget bc c e)) := by
  cases e with
  | name _ => rfl
  | ref ref =>
      obtain ⟨key, hk⟩ := hc.key? he
      have haim := aimEnd_retarget_aim abc (b.fusedWith c bc) key
      rw [retarget_ref hk, retarget_ref hk, aimEnd_aim (Table.Grows.refl abc)]
      exact haim.symm

theorem map_mapEnds_congr {rs : List Relation} {f g : Endpoint → Endpoint}
    (h : ∀ e ∈ rs.flatMap (·.ends), f e = g e) :
    rs.map (·.mapEnds f) = rs.map (·.mapEnds g) := by
  apply List.map_congr_left
  intro r hr
  exact Relation.mapEnds_congr fun e he => h e (List.mem_flatMap.mpr ⟨r, hr, he⟩)

/-- Fused from the left and from the right, three diagrams are the same once resolved. -/
theorem resolve_fusedWith_assoc {a b c : Diagram} {ab bc abc : Table Entity} (hb : b.Closed)
    (hc : c.Closed) (hab : ab.Grows abc) (hbc : b.objects.Grows bc) :
    ((a.fusedWith b ab).fusedWith c abc).resolve =
      (a.fusedWith (b.fusedWith c bc) abc).resolve := by
  apply resolve_congr
  · rfl
  · rfl
  · simp only [fusedWith, List.map_append, List.map_map, Function.comp_def,
      Relation.mapEnds_mapEnds, List.append_assoc]
    refine congr (congrArg _ ?_) (congr (congrArg _ ?_) ?_)
    · exact map_mapEnds_congr fun e _ => congrArg (aimEnd abc) (settle_settle hab a.stubs e)
    · exact map_mapEnds_congr fun e he => aimEnd_second hab hbc hb he
    · exact map_mapEnds_congr fun e he => aimEnd_third hc he
  · simp only [fusedWith, List.append_assoc]
  · simp only [fusedWith, Bool.or_assoc]

/-! ## When three diagrams can be fused -/

/-- Diagrams of declared entities can be fused exactly if they agree on the kind of every name. -/
theorem exists_fuse_iff_agree {d other : Diagram} (hd : d.objects.AllDeclared)
    (ho : other.objects.AllDeclared) :
    (∃ fused, d.fuse other = .ok fused) ↔
      ∀ key, Agree (d.objects.kind? key) (other.objects.kind? key) := by
  rw [exists_fuse_iff, Table.compatible_iff hd ho]

theorem declared_of_fuse {d other fused : Diagram} (hd : d.objects.AllDeclared)
    (ho : other.objects.AllDeclared) (h : d.fuse other = .ok fused) :
    fused.objects.AllDeclared ∧
      ∀ key, fused.objects.kind? key = (d.objects.kind? key).or (other.objects.kind? key) := by
  obtain ⟨objects, hf, rfl⟩ := fuse_eq_ok h
  exact ⟨hf.allDeclared hd ho, hf.kind? hd⟩

theorem exists_fuse_left_iff {a b c : Diagram} (ha : a.objects.AllDeclared)
    (hb : b.objects.AllDeclared) (hc : c.objects.AllDeclared) :
    (∃ left, (do (← a.fuse b).fuse c) = .ok left) ↔
      ∀ key, Agree (a.objects.kind? key) (b.objects.kind? key) ∧
        Agree ((a.objects.kind? key).or (b.objects.kind? key)) (c.objects.kind? key) := by
  rw [forall_and, ← exists_fuse_iff_agree ha hb]
  apply Except.exists_bind_eq_ok_iff
  intro ab hab
  obtain ⟨hd, hk⟩ := declared_of_fuse ha hb hab
  simp only [exists_fuse_iff_agree hd hc, hk]

theorem exists_fuse_right_iff {a b c : Diagram} (ha : a.objects.AllDeclared)
    (hb : b.objects.AllDeclared) (hc : c.objects.AllDeclared) :
    (∃ right, (do a.fuse (← b.fuse c)) = .ok right) ↔
      ∀ key, Agree (b.objects.kind? key) (c.objects.kind? key) ∧
        Agree (a.objects.kind? key) ((b.objects.kind? key).or (c.objects.kind? key)) := by
  rw [forall_and, ← exists_fuse_iff_agree hb hc]
  apply Except.exists_bind_eq_ok_iff
  intro bc hbc
  obtain ⟨hd, hk⟩ := declared_of_fuse hb hc hbc
  simp only [exists_fuse_iff_agree ha hd, hk]

/-- Fusing is associative up to resolution: of three diagrams of declared entities, fusing from
the left fails exactly if fusing from the right does, and what comes out is the same diagram
once it is resolved. -/
theorem fuse_assoc_resolve {a b c : Diagram} (ha : a.objects.AllDeclared)
    (hb : b.objects.AllDeclared) (hc : c.objects.AllDeclared) (hbc : b.Closed) (hcc : c.Closed) :
    ((∃ e, (do (← a.fuse b).fuse c) = .error e) ↔ ∃ e, (do a.fuse (← b.fuse c)) = .error e) ∧
      ∀ left right, (do (← a.fuse b).fuse c) = .ok left →
        (do a.fuse (← b.fuse c)) = .ok right → left.resolve = right.resolve := by
  constructor
  · rw [Except.exists_error_iff, Except.exists_error_iff, exists_fuse_left_iff ha hb hc,
      exists_fuse_right_iff ha hb hc]
    simp only [agree_or_iff]
  · intro left right hleft hright
    obtain ⟨ab, hab, hl⟩ := Except.bind_eq_ok_iff.mp hleft
    obtain ⟨bc, hbc', hr⟩ := Except.bind_eq_ok_iff.mp hright
    obtain ⟨tab, hfab, rfl⟩ := fuse_eq_ok hab
    obtain ⟨tbc, hfbc, rfl⟩ := fuse_eq_ok hbc'
    obtain ⟨tl, hfl, rfl⟩ := fuse_eq_ok hl
    obtain ⟨tr, hfr, rfl⟩ := fuse_eq_ok hr
    have hsame : tl = tr := hfab.assoc ha hb hc hfl hfbc hfr
    subst hsame
    exact resolve_fusedWith_assoc hbc hcc hfl.grows hfbc.grows

/-- An order with an item that is not declared here. -/
def orders : Diagram where
  objects := Table.empty.insert "Order" (.ofKind .classKind "Order" [])
  stubs := Table.empty.insert "Item" (.placeholder "Item")
  relations := [.associate (.registered 0) (.stub 0) (.ofRoleB "items")]

/-- An item with an order and with a shop that is not declared here. -/
def items : Diagram where
  objects := (Table.empty.insert "Item" (.ofKind .classKind "Item" [])).insert "Order"
    (.ofKind .classKind "Order" ["sales"])
  stubs := Table.empty.insert "Shop" (.placeholder "Shop")
  relations := [.associate (.registered 0) (.stub 0) (.ofRoleB "shop"),
    .associate (.registered 0) (.registered 1) (.ofRoleB "order")]
  inferred := true

/-- A shop that is also an item, with a customer that nothing declares. -/
def shops : Diagram where
  objects := (Table.empty.insert "Shop" (.ofKind .classKind "Shop" [])).insert "Item"
    (.ofKind .classKind "Item" [])
  relations := [⟨.ref (.registered 0), .ref (.registered 1), .inheritance⟩,
    .associate (.registered 0) (.stub 0) (.ofRoleB "customer")]
  stubs := Table.empty.insert "Customer" (.placeholder "Customer")

/-- The two fusions of the three diagrams differ until they are resolved: the shop of an item is
a bare name in one and a reference in the other. -/
theorem fuse_assoc_orders_items_shops :
    orders.objects.AllDeclared ∧ items.objects.AllDeclared ∧ shops.objects.AllDeclared ∧
      items.Closed ∧ shops.Closed ∧
      ∃ left right, (do (← orders.fuse items).fuse shops) = .ok left ∧
        (do orders.fuse (← items.fuse shops)) = .ok right ∧
        left ≠ right ∧ left.resolve = right.resolve := by
  have ho : orders.objects.AllDeclared := by decide
  have hi : items.objects.AllDeclared := by decide
  have hs : shops.objects.AllDeclared := by decide
  have hci : items.Closed := by decide
  have hcs : shops.Closed := by decide
  refine ⟨ho, hi, hs, hci, hcs, _, _, rfl, rfl, by decide, ?_⟩
  exact (fuse_assoc_resolve ho hi hs hci hcs).2 _ _ rfl rfl

end Diagram

end ClassDiagram
