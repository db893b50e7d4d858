import LocalPlatform.Artifacts.Lineage

/-!
# What a registration writes

* `Registering` is what the first loop of `register_qlib_artifacts` does: a row for each item that
  has none.
* `Linked` is what its last loop does: an edge from each parent of each item.
* `Registration.identity`: the row of an item of a clean bundle has what was checked of the item,
  whether it was there before or not.
* `Registration.joined`, `Registration.acyclic` and `Registration.sameParents` are the invariant.
-/

namespace LocalPlatform.Qlib

open Paper Tables Results Dags

variable {db middle next : Db} {items : List RegistryItem}

/-! ## Rows -/

/-- The items that are not registered yet get a row. -/
structure Registering (items : List RegistryItem) (db next : Db) : Prop where
  others : next = { db with registry := next.registry, events := next.events }
  kept : ∀ id row, db.artifact id = some row → next.artifact id = some row
  source : ∀ id row, next.artifact id = some row → db.artifact id = none →
    ∃ item ∈ items, item.artifact.id = id ∧ registeredRow item = .ok row
  present : ∀ item ∈ items, (next.artifact item.artifact.id).isSome
  keyed : Tables.Unique Registered.artifactId db.registry →
    Tables.Unique Registered.artifactId next.registry

variable {item : RegistryItem} {row : Registered}

theorem registeredRow_ok (h : registeredRow item = .ok row) :
    row.artifactId = item.artifact.id ∧
      column (item.artifact.fields.get "dataReleaseId") = .ok (some row.dataReleaseId) ∧
      column (item.artifact.fields.get "universeReleaseId") = .ok row.universeReleaseId ∧
      row.artifactType = item.artifactType ∧ row.payloadSha256 = item.artifact.payloadSha256 ∧
      row.metadata = item.artifact.metadata := by
  unfold registeredRow at h
  obtain ⟨dataRelease, hdataRelease, h⟩ := bind_ok h
  obtain ⟨universe', huniverse, h⟩ := bind_ok h
  obtain ⟨policy, -, h⟩ := bind_ok h
  obtain ⟨dataReleaseId, hsome, h⟩ := bind_ok h
  have hthere := orThrow_ok.mp hsome
  subst hthere
  rw [← Except.ok.inj h]
  exact ⟨rfl, hdataRelease, huniverse, rfl, rfl, rfl⟩

theorem registeredRow_status (h : registeredRow item = .ok row) :
    row.promotionStatus = item.promotionStatus := by
  unfold registeredRow at h
  obtain ⟨_, -, h⟩ := bind_ok h
  obtain ⟨_, -, h⟩ := bind_ok h
  obtain ⟨_, -, h⟩ := bind_ok h
  obtain ⟨_, -, h⟩ := bind_ok h
  rw [← Except.ok.inj h]

theorem insertRegistered_ok (h : insertRegistered row db = .ok next) :
    db.artifact row.artifactId = none ∧
      next = { db with registry := db.registry ++ [row] } := by
  unfold insertRegistered at h
  obtain ⟨_, hfresh, h⟩ := bind_ok h
  exact ⟨require_ok.mp hfresh, (Except.ok.inj h).symm⟩

theorem artifact_append (hfresh : db.artifact row.artifactId = none) (id : String) :
    Db.artifact { db with registry := db.registry ++ [row] } id =
      if id = row.artifactId then some row else db.artifact id :=
  find_append_singleton hfresh id

theorem registerItem_ok (h : registerItem db item = .ok next) : Registering [item] db next := by
  unfold registerItem at h
  split_ifs at h with hthere
  · obtain rfl := Except.ok.inj h
    refine ⟨rfl, fun _ _ hrow => hrow, fun id row hrow hnone => ?_, ?_, fun hkeyed => hkeyed⟩
    · rw [hnone] at hrow
      cases hrow
    · intro other hother
      rw [List.mem_singleton.mp hother]
      exact hthere
  · obtain ⟨row, hrow, h⟩ := bind_ok h
    obtain ⟨inserted, hinsert, h⟩ := bind_ok h
    obtain ⟨hfresh, rfl⟩ := insertRegistered_ok hinsert
    obtain rfl := Except.ok.inj h
    have hid := (registeredRow_ok hrow).1
    have hartifact : ∀ id, Db.artifact (insertEvent
        ⟨item.artifact.id, none, item.promotionStatus, .qlib, "initial_import"⟩
        { db with registry := db.registry ++ [row] }) id =
        if id = row.artifactId then some row else db.artifact id := artifact_append hfresh
    refine ⟨rfl, fun id old hold => ?_, fun id new hnew hnone => ?_, fun other hother => ?_,
      fun hkeyed => Unique.append_singleton hkeyed hfresh⟩
    · rw [hartifact, if_neg]
      · exact hold
      · intro heq
        rw [heq, hfresh] at hold
        cases hold
    · rw [hartifact] at hnew
      split_ifs at hnew with heq
      · refine ⟨item, List.mem_singleton_self _, by rw [heq, hid], ?_⟩
        rw [← Option.some.inj hnew]
        exact hrow
      · rw [hnone] at hnew
        cases hnew
    · rw [hartifact, List.mem_singleton.mp hother, hid]
      simp

theorem Registering.trans {first rest : List RegistryItem} (h : Registering first db middle)
    (h' : Registering rest middle next) : Registering (first ++ rest) db next where
  others := by
    rw [h'.others]
    dsimp only
    rw [h.others]
  kept := fun id row hrow => h'.kept id row (h.kept id row hrow)
  source := by
    intro id row hrow hnone
    cases hmiddle : middle.artifact id with
    | none =>
      obtain ⟨item, hitem, hfrom⟩ := h'.source id row hrow hmiddle
      exact ⟨item, List.mem_append_right _ hitem, hfrom⟩
    | some old =>
      have hsame : old = row := Option.some.inj ((h'.kept id old hmiddle).symm.trans hrow)
      obtain ⟨item, hitem, hfrom⟩ := h.source id old hmiddle hnone
      exact ⟨item, List.mem_append_left _ hitem, hsame ▸ hfrom⟩
  present := by
    intro item hitem
    cases List.mem_append.mp hitem with
    | inl hfirst =>
      obtain ⟨row, hrow⟩ := Option.isSome_iff_exists.mp (h.present item hfirst)
      rw [h'.kept _ row hrow]
      rfl
    | inr hrest => exact h'.present item hrest
  keyed := fun hkeyed => h'.keyed (h.keyed hkeyed)

theorem registerItems_ok : ∀ {items : List RegistryItem} {db : Db},
    items.foldlM registerItem db = .ok next → Registering items db next := by
  intro items
  induction items with
  | nil =>
    intro db h
    obtain rfl := Except.ok.inj h
    refine ⟨rfl, fun _ _ hrow => hrow, fun id row hrow hnone => ?_, by simp, fun hkeyed => hkeyed⟩
    rw [hnone] at hrow
    cases hrow
  | cons item items ih =>
    intro db h
    rw [List.foldlM_cons] at h
    obtain ⟨middle, hitem, hrest⟩ := bind_ok h
    exact (registerItem_ok hitem).trans (ih hrest)

/-! ## Edges -/

/-- An edge from each parent of each item is there, and both ends of it are registered. -/
structure Linked (items : List RegistryItem) (db next : Db) : Prop where
  others : next = { db with edges := next.edges }
  edges : ∀ parent child, (parent, child) ∈ next.edges ↔ (parent, child) ∈ db.edges ∨
    ∃ item ∈ items, item.artifact.id = child ∧ parent ∈ item.artifact.parents
  registered : ∀ item ∈ items, ∀ parent ∈ item.artifact.parents, (db.artifact parent).isSome

theorem Linked.artifact (h : Linked items db next) (id : String) :
    next.artifact id = db.artifact id := by
  rw [h.others]
  rfl

theorem insertEdge_ok {parent child : String} (h : insertEdge parent child db = .ok next) :
    next = { db with edges := next.edges } ∧ (db.artifact parent).isSome ∧
      (db.artifact child).isSome ∧
      ∀ edge, edge ∈ next.edges ↔ edge ∈ db.edges ∨ edge = (parent, child) := by
  unfold insertEdge at h
  obtain ⟨_, hends, h⟩ := bind_ok h
  have hregistered := require_ok.mp hends
  rw [← Except.ok.inj h]
  split_ifs with hmem
  · refine ⟨rfl, hregistered.1, hregistered.2, fun edge => ⟨Or.inl, fun hedge => ?_⟩⟩
    cases hedge with
    | inl hold => exact hold
    | inr hnew => exact hnew ▸ hmem
  · exact ⟨rfl, hregistered.1, hregistered.2, fun edge => by simp⟩

theorem insertEdges_ok {child : String} : ∀ {parents : List String} {db : Db},
    parents.foldlM (fun db parent => insertEdge parent child db) db = .ok next →
      next = { db with edges := next.edges } ∧ (∀ parent ∈ parents, (db.artifact parent).isSome) ∧
        ∀ edge, edge ∈ next.edges ↔ edge ∈ db.edges ∨ ∃ parent ∈ parents, edge = (parent, child) := by
  intro parents
  induction parents with
  | nil =>
    intro db h
    obtain rfl := Except.ok.inj h
    exact ⟨rfl, by simp, by simp⟩
  | cons parent parents ih =>
    intro db h
    rw [List.foldlM_cons] at h
    obtain ⟨middle, hparent, hrest⟩ := bind_ok h
    obtain ⟨hmiddle, hregistered, -, hedges⟩ := insertEdge_ok hparent
    obtain ⟨hnext, hothers, hmore⟩ := ih hrest
    have hartifact : ∀ id, middle.artifact id = db.artifact id := by
      intro id
      rw [hmiddle]
      rfl
    refine ⟨?_, fun other hother => ?_, fun edge => ?_⟩
    · rw [hnext]
      dsimp only
      rw [hmiddle]
    · cases List.mem_cons.mp hother with
      | inl heq => exact heq ▸ hregistered
      | inr hmem => exact hartifact other ▸ hothers other hmem
    · rw [hmore, hedges, or_assoc]
      simp

theorem registerEdges_ok (h : registerEdges db item = .ok next) : Linked [item] db next := by
  obtain ⟨hnext, hregistered, hedges⟩ := insertEdges_ok h
  refine ⟨hnext, fun parent child => ?_, fun other hother => ?_⟩
  · rw [hedges]
    refine or_congr_right ⟨?_, ?_⟩
    · rintro ⟨other, hother, heq⟩
      obtain ⟨rfl, rfl⟩ := Prod.mk.inj heq
      exact ⟨item, List.mem_singleton_self _, rfl, hother⟩
    · rintro ⟨other, hother, rfl, hparent⟩
      rw [List.mem_singleton.mp hother] at hparent ⊢
      exact ⟨parent, hparent, rfl⟩
  · rw [List.mem_singleton.mp hother]
    exact hregistered

theorem Linked.trans {first rest : List RegistryItem} (h : Linked first db middle)
    (h' : Linked rest middle next) : Linked (first ++ rest) db next where
  others := by
    rw [h'.others]
    dsimp only
    rw [h.others]
  edges := by
    intro parent child
    rw [h'.edges, h.edges, or_assoc]
    simp only [List.mem_append, or_and_right, exists_or]
  registered := by
    intro item hitem parent hparent
    cases List.mem_append.mp hitem with
    | inl hfirst => exact h.registered item hfirst parent hparent
    | inr hrest =>
      rw [← h.artifact]
      exact h'.registered item hrest parent hparent

theorem registerAllEdges_ok : ∀ {items : List RegistryItem} {db : Db},
    items.foldlM registerEdges db = .ok next → Linked items db next := by
  intro items
  induction items with
  | nil =>
    intro db h
    obtain rfl := Except.ok.inj h
    exact ⟨rfl, by simp, by simp⟩
  | cons item items ih =>
    intro db h
    rw [List.foldlM_cons] at h
    obtain ⟨middle, hitem, hrest⟩ := bind_ok h
    exact (registerEdges_ok hitem).trans (ih hrest)

/-! ## A registration -/

/-- What `register_qlib_artifacts` has done when it returns. -/
structure Registration (artifacts : List Artifact) (items : List RegistryItem)
    (db middle next : Db) : Prop where
  checked : preflightGraph artifacts = .ok items
  graph : GraphChecked artifacts items
  fits : ∀ item ∈ items, Fits db (artifacts.map Artifact.id) item
  rows : Registering items db middle
  edges : Linked items middle next

theorem registerQlibArtifacts_ok {artifacts : List Artifact}
    (h : registerQlibArtifacts artifacts db = .ok next) :
    ∃ items middle, Registration artifacts items db middle next := by
  unfold registerQlibArtifacts at h
  obtain ⟨items, hitems, h⟩ := bind_ok h
  obtain ⟨middle, hmiddle, hnext⟩ := bind_ok h
  obtain ⟨hgraph, hfits⟩ := preflightQlibArtifacts_iff.mp hitems
  exact ⟨items, middle, hgraph, preflightGraph_ok hgraph, hfits, registerItems_ok hmiddle,
    registerAllEdges_ok hnext⟩

/-! ## A clean bundle -/

theorem textOrNone_eq_some {s t : String} : textOrNone s = some t ↔ s = t ∧ t ≠ "" := by
  unfold textOrNone
  by_cases hs : s = ""
  · rw [if_pos hs]
    constructor
    · intro h
      cases h
    · intro h
      exact absurd (h.1 ▸ hs) h.2
  · rw [if_neg hs]
    constructor
    · intro h
      obtain rfl := Option.some.inj h
      exact ⟨rfl, hs⟩
    · intro h
      rw [h.1]

theorem str_of_textOrNone {value : ParamValue} {text : String}
    (h : textOrNone (rawText value) = some text) : value.str = text := by
  obtain ⟨hraw, hne⟩ := textOrNone_eq_some.mp h
  unfold rawText at hraw
  split_ifs at hraw
  · exact hraw
  · exact absurd hraw.symm hne

theorem column_ok {value : ParamValue} {text : String} (h : column value = .ok (some text)) :
    value.str = text := by
  cases value with
  | null => cases h
  | bool b => cases h
  | num x => exact Option.some.inj (Except.ok.inj h)
  | text s => exact Option.some.inj (Except.ok.inj h)
  | list items => cases h

/-- An artifact of a clean bundle: what is stored and compared of it is what was checked. -/
structure CleanArtifact (validated : Validated) (artifact : Artifact) : Prop where
  dataRelease : (artifact.fields.get "dataReleaseId").str = validated.dataReleaseId
  universeRelease : textOrNone (rawText (artifact.fields.get "universeReleaseId")) =
    validated.universeReleaseId
  storedUniverse : ∀ stored, column (artifact.fields.get "universeReleaseId") = .ok stored →
    textOrNone (stored.getD "") = validated.universeReleaseId
  source : textOrNone (rawText (artifact.metadata.get "sourceManifestSha256")) =
    sourceManifestSha256 artifact.metadata
  parents : artifact.parents ⊆ validated.artifacts.map Artifact.id

theorem cleanArtifacts {payload : Payload} {validated : Validated}
    (h : validatePayload payload = .ok validated) (hclean : payload.Clean) :
    ∀ artifact ∈ validated.artifacts, CleanArtifact validated artifact := by
  obtain ⟨items, hartifacts, hof, haccepted⟩ := validatePayload_ok h
  have hids : items.map Checked.artifactId = validated.artifacts.map Artifact.id := by
    rw [hartifacts, List.map_map]
    refine List.map_congr_left (fun checked hchecked => ?_)
    obtain ⟨raw, hraw, hfrom⟩ := hof checked hchecked
    have htext := (hclean raw hraw).artifactId.trans hfrom.artifactId
    show _ = (checked.artifact.fields.get "artifactId").str
    rw [hfrom.fields, str_of_textOrNone htext]
  intro artifact hartifact
  rw [hartifacts] at hartifact
  obtain ⟨checked, hchecked, rfl⟩ := List.mem_map.mp hartifact
  obtain ⟨raw, hraw, hfrom⟩ := hof checked hchecked
  have hraw' := hclean raw hraw
  have haccept := haccepted checked hchecked
  have hfields := hfrom.fields
  refine ⟨?_, ?_, fun stored hstored => ?_, ?_, hids ▸ haccept.parents⟩
  · have htext := hraw'.dataReleaseId.1
    rw [← hfields] at htext
    exact str_of_textOrNone (htext.trans haccept.dataReleaseId)
  · have htext := hraw'.universeReleaseId.1
    rw [← hfields] at htext
    exact htext.trans haccept.universeReleaseId
  · have hcolumn := hraw'.universeReleaseId.2
    rw [← hfields, hstored] at hcolumn
    exact hcolumn.trans haccept.universeReleaseId
  · have hmetadata := hfrom.metadata
    have hsource := hraw'.source
    cases hkind : raw.metadata with
    | missing =>
      rw [hkind] at hmetadata
      rw [← Except.ok.inj hmetadata]
      rfl
    | object fields =>
      rw [hkind] at hmetadata hsource
      rw [← Except.ok.inj hmetadata]
      exact hsource
    | other =>
      rw [hkind] at hmetadata
      cases hmetadata

section Registration

variable {artifacts : List Artifact} {validated : Validated}

theorem Registration.identity (h : Registration validated.artifacts items db middle next)
    (hclean : ∀ artifact ∈ validated.artifacts, CleanArtifact validated artifact)
    {item : RegistryItem} (hitem : item ∈ items) :
    ∃ row, next.artifact item.artifact.id = some row ∧ row.identity = item.identity := by
  have hartifact := hclean item.artifact (h.graph.same ▸ List.mem_map_of_mem hitem)
  obtain ⟨row, hrow⟩ := Option.isSome_iff_exists.mp (h.rows.present item hitem)
  refine ⟨row, by rw [h.edges.artifact, hrow], ?_⟩
  cases hdb : db.artifact item.artifact.id with
  | some old =>
    have hsame : old = row := Option.some.inj ((h.rows.kept _ old hdb).symm.trans hrow)
    exact hsame ▸ (h.fits item hitem).identity old hdb
  | none =>
    obtain ⟨source, hsource, hid, hregistered⟩ := h.rows.source _ row hrow hdb
    have hnodup : (items.map (fun item => item.artifact.id)).Nodup := by
      have hids := h.graph.ids
      rw [← h.graph.same, List.map_map] at hids
      exact hids
    obtain rfl := List.inj_on_of_nodup_map hnodup hsource hitem hid
    obtain ⟨-, hrelease, huniverse, htype, hpayload, hmetadata⟩ := registeredRow_ok hregistered
    unfold Registered.identity RegistryItem.identity
    rw [htype, hpayload, hmetadata, hartifact.storedUniverse _ huniverse, hartifact.universeRelease,
      hartifact.source, column_ok hrelease]

theorem Registration.releases (h : Registration validated.artifacts items db middle next)
    (hclean : ∀ artifact ∈ validated.artifacts, CleanArtifact validated artifact) {id : String}
    (hid : id ∈ validated.artifacts.map Artifact.id) :
    ∃ row, next.artifact id = some row ∧ row.dataReleaseId = validated.dataReleaseId ∧
      row.universe = validated.universeReleaseId := by
  obtain ⟨artifact, hmem, rfl⟩ := List.mem_map.mp hid
  have hartifact := hclean artifact hmem
  rw [← h.graph.same] at hmem
  obtain ⟨item, hitem, rfl⟩ := List.mem_map.mp hmem
  obtain ⟨row, hrow, hidentity⟩ := h.identity hclean hitem
  have hrelease : row.dataReleaseId = (item.artifact.fields.get "dataReleaseId").str :=
    congrArg Identity.dataReleaseId hidentity
  have huniverse : row.universe =
      textOrNone (rawText (item.artifact.fields.get "universeReleaseId")) :=
    congrArg Identity.universeReleaseId hidentity
  exact ⟨row, hrow, hrelease.trans hartifact.dataRelease, huniverse.trans hartifact.universeRelease⟩

theorem Registration.kept (h : Registration artifacts items db middle next) {id : String}
    {row : Registered} (hrow : db.artifact id = some row) : next.artifact id = some row := by
  rw [h.edges.artifact]
  exact h.rows.kept id row hrow

theorem Registration.middle_edges (h : Registration artifacts items db middle next) :
    middle.edges = db.edges := by
  rw [h.rows.others]

theorem Registration.sameParents (h : Registration artifacts items db middle next) {id : String}
    (hid : (db.artifact id).isSome) (parent : String) :
    (parent, id) ∈ next.edges ↔ (parent, id) ∈ db.edges := by
  rw [h.edges.edges, h.middle_edges]
  refine ⟨fun hedge => ?_, Or.inl⟩
  cases hedge with
  | inl hold => exact hold
  | inr hnew =>
    obtain ⟨item, hitem, rfl, hparent⟩ := hnew
    exact ((h.fits item hitem).sameParents hid parent).mpr hparent

theorem Registration.itemParents (h : Registration artifacts items db middle next)
    (hjoined : ∀ edge ∈ db.edges, Joined db edge) {item : RegistryItem} (hitem : item ∈ items)
    (parent : String) :
    (parent, item.artifact.id) ∈ next.edges ↔ parent ∈ item.artifact.parents := by
  by_cases hthere : (db.artifact item.artifact.id).isSome
  · rw [h.sameParents hthere]
    exact (h.fits item hitem).sameParents hthere parent
  · rw [h.edges.edges, h.middle_edges]
    constructor
    · intro hedge
      cases hedge with
      | inl hold =>
        obtain ⟨_, child, -, hchild, -⟩ := hjoined _ hold
        exact absurd (by rw [hchild]; rfl) hthere
      | inr hnew =>
        obtain ⟨other, hother, hid, hparent⟩ := hnew
        have hnodup : (items.map (fun item => item.artifact.id)).Nodup := by
          have hids := h.graph.ids
          rw [← h.graph.same, List.map_map] at hids
          exact hids
        obtain rfl := List.inj_on_of_nodup_map hnodup hother hitem hid
        exact hparent
    · exact fun hparent => .inr ⟨item, hitem, rfl, hparent⟩

theorem Registration.joined (h : Registration validated.artifacts items db middle next)
    (hclean : ∀ artifact ∈ validated.artifacts, CleanArtifact validated artifact)
    (hjoined : ∀ edge ∈ db.edges, Joined db edge) : ∀ edge ∈ next.edges, Joined next edge := by
  rintro ⟨parent, child⟩ hedge
  rw [h.edges.edges, h.middle_edges] at hedge
  cases hedge with
  | inl hold =>
    obtain ⟨a, b, ha, hb, hrelease, huniverse⟩ := hjoined _ hold
    exact ⟨a, b, h.kept ha, h.kept hb, hrelease, huniverse⟩
  | inr hnew =>
    obtain ⟨item, hitem, rfl, hparent⟩ := hnew
    have hmem : item.artifact ∈ validated.artifacts := h.graph.same ▸ List.mem_map_of_mem hitem
    obtain ⟨a, ha, harelease, hauniverse⟩ :=
      h.releases hclean ((hclean item.artifact hmem).parents hparent)
    obtain ⟨b, hb, hbrelease, hbuniverse⟩ := h.releases hclean (List.mem_map_of_mem hmem)
    exact ⟨a, b, ha, hb, harelease.trans hbrelease.symm, hauniverse.trans hbuniverse.symm⟩

theorem Registration.acyclic (h : Registration artifacts items db middle next)
    (hjoined : ∀ edge ∈ db.edges, Joined db edge)
    (hacyclic : Acyclic (fun parent child => (parent, child) ∈ db.edges)) :
    Acyclic (fun parent child => (parent, child) ∈ next.edges) := by
  refine Acyclic.extend (fun id => (db.artifact id).isSome) hacyclic ?_ ?_
  · intro parent child hedge hchild
    have hold := (h.sameParents hchild parent).mp hedge
    obtain ⟨a, _, ha, -⟩ := hjoined _ hold
    exact ⟨hold, by rw [ha]; rfl⟩
  · refine h.graph.acyclic.mono ?_
    rintro parent child ⟨hedge, hparent, hchild⟩
    rw [h.edges.edges, h.middle_edges] at hedge
    cases hedge with
    | inl hold =>
      obtain ⟨a, _, ha, -⟩ := hjoined _ hold
      exact absurd (by rw [ha]; rfl) hparent
    | inr hnew =>
      obtain ⟨item, hitem, rfl, hmem⟩ := hnew
      refine ⟨item.artifact, h.graph.same ▸ List.mem_map_of_mem hitem, rfl, hmem, ?_⟩
      exact ((h.fits item hitem).parents parent hmem).resolve_right hparent

end Registration

end LocalPlatform.Qlib
