import LayoutGrammar.Proofs.Extract.Components

/-!
# Extraction as flattening

A document in which no map stands within itself can be listed in preorder (`Listing`): every map at
the top, itself followed by what it defines. Extraction gives the dictionary of that list, in its
order and with the pattern of each map by itself, or names the first id in it that repeats an
earlier one (`extract_flattens`). Whatever was extracted is such a list (`entries_of_extract`).
-/

namespace LayoutGrammar

namespace Extract

open Relation Parents

/-! ## Repeated ids -/

/-- The first id that was seen before or repeats an earlier one. -/
def firstRepeat? (seen : List String) : List String → Option String
  | [] => none
  | id :: rest => if id ∈ seen then some id else firstRepeat? (seen ++ [id]) rest

theorem firstRepeat?_eq_none_iff {seen ids : List String} :
    firstRepeat? seen ids = none ↔ ids.Nodup ∧ ∀ id ∈ ids, id ∉ seen := by
  induction ids generalizing seen with
  | nil => simp [firstRepeat?]
  | cons id rest ih =>
    rw [firstRepeat?, List.nodup_cons, List.forall_mem_cons]
    by_cases hseen : id ∈ seen
    · simp [hseen]
    · rw [if_neg hseen, ih]
      simp only [List.mem_append, List.mem_singleton, not_or]
      constructor
      · rintro ⟨hnodup, hrest⟩
        exact ⟨⟨fun hid => (hrest id hid).2 rfl, hnodup⟩, hseen, fun x hx => (hrest x hx).1⟩
      · rintro ⟨⟨hid, hnodup⟩, -, hrest⟩
        refine ⟨hnodup, fun x hx => ⟨hrest x hx, ?_⟩⟩
        rintro rfl
        exact hid hx

theorem firstRepeat?_of_mem {seen before after : List String} {id : String}
    (hbefore : before.Nodup) (hnew : ∀ x ∈ before, x ∉ seen) (hid : id ∈ seen ++ before) :
    firstRepeat? seen (before ++ id :: after) = some id := by
  induction before generalizing seen with
  | nil =>
    rw [List.append_nil] at hid
    rw [List.nil_append, firstRepeat?, if_pos hid]
  | cons x rest ih =>
    obtain ⟨hx, hrest⟩ := List.nodup_cons.1 hbefore
    rw [List.cons_append, firstRepeat?, if_neg (hnew x List.mem_cons_self)]
    refine ih hrest (fun y hy hmem => ?_) (by rwa [List.append_assoc])
    rcases List.mem_append.1 hmem with hseen | hsame
    · exact hnew y (List.mem_cons_of_mem _ hy) hseen
    · obtain rfl := List.mem_singleton.1 hsame
      exact hx hy

section Source

variable {ν : Type} (source : Source ν)

/-- Some maps in preorder, each with its id and followed by what it defines. -/
inductive Listing : List (String × ν) → List (String × ν) → Prop
  | done : Listing [] []
  | visit {id : String} {data : ν} {rest below after : List (String × ν)}
      (hbelow : Listing (definedBy source data) below) (hrest : Listing rest after) :
      Listing ((id, data) :: rest) ((id, data) :: (below ++ after))

/-- Some map is met again within itself. -/
def SelfEmbedding (items : List (String × ν)) : Prop :=
  ∃ item ∈ items, ∃ data, ReflTransGen (Nests source) item.2 data ∧
    TransGen (Nests source) data data

variable {source}

theorem Listing.unique {items xs ys : List (String × ν)} (hx : Listing source items xs)
    (hy : Listing source items ys) : xs = ys := by
  induction hx generalizing ys with
  | done =>
    cases hy
    rfl
  | visit _ _ ihbelow ihrest =>
    cases hy with
    | visit hbelow hrest => rw [ihbelow hbelow, ihrest hrest]

/-- A list in preorder contains what its maps define. -/
theorem Listing.mem_of_definedBy {items listed : List (String × ν)}
    (h : Listing source items listed) {e c : String × ν} (he : e ∈ listed)
    (hc : c ∈ definedBy source e.2) : c ∈ listed := by
  have hitems : ∀ {items listed : List (String × ν)}, Listing source items listed →
      ∀ c ∈ items, c ∈ listed := by
    intro items listed h
    induction h with
    | done => exact fun c hc => hc
    | visit _ _ _ ih =>
      intro c hc
      rcases List.mem_cons.1 hc with rfl | hc
      · exact List.mem_cons_self
      · exact List.mem_cons_of_mem _ (List.mem_append_right _ (ih c hc))
  induction h with
  | done => cases he
  | visit hbelow _ ihbelow ihrest =>
    refine List.mem_cons_of_mem _ (List.mem_append.2 ?_)
    rcases List.mem_cons.1 he with rfl | he
    · exact .inl (hitems hbelow c hc)
    · rcases List.mem_append.1 he with he | he
      · exact .inl (ihbelow he)
      · exact .inr (ihrest he)

/-! ## Walks without repeated visits -/

variable (source) in
/-- No step comes to a map that is being extracted. -/
def Unrepeated (steps : List (WalkStep ν)) : Prop :=
  ∀ trail id data, .enter trail id data ∈ steps → onTrail source trail data = false

theorem Unrepeated.parts {trail : List (String × ν)} {id : String} {data : ν}
    {below after : List (WalkStep ν)}
    (h : Unrepeated source (.enter trail id data :: (below ++ .leave id data :: after))) :
    Unrepeated source below ∧ Unrepeated source after := by
  constructor
  · intro trail' id' data' hmem
    exact h trail' id' data' (List.mem_cons_of_mem _ (List.mem_append_left _ hmem))
  · intro trail' id' data' hmem
    exact h trail' id' data'
      (List.mem_cons_of_mem _ (List.mem_append_right _ (List.mem_cons_of_mem _ hmem)))

theorem listing_of_walk {trail items : List (String × ν)} {steps : List (WalkStep ν)}
    (h : Walk source trail items steps) (hon : Unrepeated source steps) :
    Listing source items (entered steps) := by
  induction h with
  | done => exact .done
  | again honce _ _ =>
    have hnever := hon _ _ _ List.mem_cons_self
    rw [honce] at hnever
    cases hnever
  | into _ _ _ ihbelow ihrest =>
    obtain ⟨honbelow, honafter⟩ := hon.parts
    rw [entered_enter, entered_append, entered_leave]
    exact .visit (ihbelow honbelow) (ihrest honafter)

theorem Walk.mem_entered_of_leave {trail items : List (String × ν)} {steps : List (WalkStep ν)}
    (h : Walk source trail items steps) {id : String} {data : ν} (hmem : .leave id data ∈ steps) :
    (id, data) ∈ entered steps := by
  induction h with
  | done => cases hmem
  | again _ _ ih =>
    rcases List.mem_cons.1 hmem with heq | hmem
    · cases heq
    · exact List.mem_cons_of_mem _ (ih hmem)
  | into _ _ _ ihbelow ihrest =>
    rw [entered_enter, entered_append, entered_leave]
    rcases List.mem_cons.1 hmem with heq | hmem
    · cases heq
    rcases List.mem_append.1 hmem with hmem | hmem
    · exact List.mem_cons_of_mem _ (List.mem_append_left _ (ihbelow hmem))
    · rcases List.mem_cons.1 hmem with heq | hmem
      · cases heq
        exact List.mem_cons_self
      · exact List.mem_cons_of_mem _ (List.mem_append_right _ (ihrest hmem))

/-- Steps without an offence repeat no map and read no infinite index. -/
theorem inOrder_of_firstOffence? {before steps : List (WalkStep ν)}
    (h : firstOffence? source before steps = none) :
    Unrepeated source steps ∧ ∀ id data, .leave id data ∈ steps →
      hasInfiniteIndex (extendsOf source data) = false := by
  have hfree : ∀ step ∈ steps, ∃ earlier, offence? source earlier step = none := by
    intro step hstep
    obtain ⟨xs, ys, hsplit⟩ := List.append_of_mem hstep
    exact ⟨_, firstOffence?_eq_none_iff.1 h xs step ys hsplit⟩
  constructor
  · intro trail id data hmem
    obtain ⟨earlier, hstep⟩ := hfree _ hmem
    rw [Bool.eq_false_iff]
    intro hon
    rw [offence?, if_pos hon] at hstep
    cases hstep
  · intro id data hmem
    obtain ⟨earlier, hstep⟩ := hfree _ hmem
    rw [Bool.eq_false_iff]
    intro hindex
    rw [offence?, if_pos hindex] at hstep
    cases hstep

/-- Where no map is repeated and all parents can be read, only a repeated id is out of order. -/
theorem firstOffence?_eq_firstRepeat? {before steps : List (WalkStep ν)}
    (hon : Unrepeated source steps)
    (hfinite : ∀ id data, .leave id data ∈ steps →
      hasInfiniteIndex (extendsOf source data) = false) :
    firstOffence? source before steps =
      (firstRepeat? ((entered before).map (·.1)) ((entered steps).map (·.1))).map
        .duplicatePattern := by
  induction steps generalizing before with
  | nil => rfl
  | cons step rest ih =>
    rw [firstOffence?,
      ih (fun trail id data hmem => hon trail id data (List.mem_cons_of_mem _ hmem))
        fun id data hmem => hfinite id data (List.mem_cons_of_mem _ hmem)]
    cases step with
    | leave id data =>
      have hparents := hfinite id data List.mem_cons_self
      simp [offence?, hparents]
    | enter trail id data =>
      have hnever := hon trail id data List.mem_cons_self
      rw [offence?, if_neg (by simp [hnever]), entered_enter, List.map_cons, firstRepeat?]
      split
      · rfl
      · simp

/-- A walk without repetitions adds the patterns of its maps in the order in which it comes to them:
a pattern that is read later takes the place that was kept for it. -/
theorem entries_foldl_carry {trail items : List (String × ν)} {steps : List (WalkStep ν)}
    (h : Walk source trail items steps) (hon : Unrepeated source steps) {d : Dictionary}
    (hnodup : (d.keys ++ (entered steps).map (·.1)).Nodup) :
    (steps.foldl (carry source) d).entries =
      d.entries ++ (entered steps).map fun e => (e.1, ownPattern source e.2) := by
  induction h generalizing d with
  | done => exact (List.append_nil _).symm
  | again honce _ _ =>
    have hnever := hon _ _ _ List.mem_cons_self
    rw [honce] at hnever
    cases hnever
  | @into trail rest id data below after _ _ _ ihbelow ihrest =>
    obtain ⟨honbelow, honafter⟩ := hon.parts
    rw [entered_enter, entered_append, entered_leave, List.map_cons, List.map_append] at hnodup
    -- a blank pattern keeps the place of the map while what the map defines is put behind it
    have hid : ∀ e ∈ d.entries, e.1 ≠ id := by
      intro e he
      exact (List.nodup_append.1 hnodup).2.2 _ (List.mem_map_of_mem he) id List.mem_cons_self
    have hblank : (d.insert id .blank).entries = d.entries ++ [(id, .blank)] :=
      Table.entries_insert_of_new _ fun e he => beq_eq_false_iff_ne.2 (hid e he)
    have hwithin : (below.foldl (carry source) (d.insert id .blank)).entries =
        d.entries ++ (id, .blank) :: (entered below).map fun e => (e.1, ownPattern source e.2) := by
      have hkeys : (d.insert id .blank).keys = d.keys ++ [id] := by
        rw [Table.keys, hblank, List.map_append]
        rfl
      rw [ihbelow honbelow, hblank, List.append_assoc]
      · rfl
      · rw [hkeys, List.append_assoc]
        refine hnodup.sublist (List.Sublist.append_left (List.Sublist.cons_cons id ?_) _)
        exact List.sublist_append_left _ _
    have hread : ((below.foldl (carry source) (d.insert id .blank)).insert id
          (ownPattern source data)).entries =
        d.entries ++ (id, ownPattern source data) ::
          (entered below).map fun e => (e.1, ownPattern source e.2) := by
      rw [Table.entries_insert, hwithin]
      exact putEntry_of_known _ _ hid _
    have hkeys : ((below.foldl (carry source) (d.insert id .blank)).insert id
        (ownPattern source data)).keys = d.keys ++ id :: (entered below).map (·.1) := by
      rw [Table.keys, hread, List.map_append, List.map_cons, List.map_map]
      rfl
    rw [List.foldl_cons, List.foldl_append, List.foldl_cons, entered_enter, entered_append,
      entered_leave, List.map_cons, List.map_append]
    have hlater := ihrest honafter (d := (below.foldl (carry source) (d.insert id .blank)).insert id
      (ownPattern source data)) (by rwa [hkeys, List.append_assoc, List.cons_append])
    rw [hread, List.append_assoc, List.cons_append] at hlater
    exact hlater

variable (source) in
/-- A dictionary that is the flat form of some maps: it has their ids in order, the pattern of each
is read off its map, and a child that carries a definition gives its owner no more than the id under
which the dictionary has the pattern of that child, and a location. -/
structure Flattens (listed : List (String × ν)) (d : Dictionary) : Prop where
  entries : d.entries = listed.map fun e => (e.1, ownPattern source e.2)
  reads : ∀ e ∈ listed, Reads source e.2 (ownPattern source e.2)
  components : ∀ e ∈ listed, ∀ placement : Placement, placement.isKnown = true →
    (ownPattern source e.2).components placement =
      .ok (.ofList (componentsAt source placement e.2))
  inline : ∀ e ∈ listed, ∀ placement, ∀ child ∈ childrenAt source placement e.2, ∀ n,
    child.2 = .node n → Defines source n →
      entryOf? source child =
          some (child.1.text, ⟨inlineId child.1.text, locationOf source (source.entries n)⟩) ∧
        d.get? (inlineId child.1.text) = some (ownPattern source n)

theorem flattens_of_entries {items listed : List (String × ν)} {d : Dictionary}
    (hlisting : Listing source items listed)
    (hfinite : ∀ e ∈ listed, hasInfiniteIndex (extendsOf source e.2) = false)
    (hentries : d.entries = listed.map fun e => (e.1, ownPattern source e.2)) :
    Flattens source listed d where
  entries := hentries
  reads e he := by
    obtain ⟨parents, hparents⟩ := (result_ofValue _).2 (hfinite e he)
    have hown : ownParents source e.2 = .ok parents := hparents
    refine ⟨parents, hown, ?_⟩
    rw [ownPattern, hown]
    rfl
  components e _ placement hplacement := components_ownPattern hplacement e.2
  inline e he placement child hchild n hslot hn := by
    refine ⟨entryOf?_of_defines hslot hn, ?_⟩
    have hdefined : (inlineId child.1.text, n) ∈ definedBy source e.2 :=
      mem_definedBy_iff.2 ⟨placement, child, hchild, hslot, hn, rfl⟩
    have hlisted := hlisting.mem_of_definedBy he hdefined
    rw [Table.get?_eq_some_iff, hentries]
    exact List.mem_map.2 ⟨_, hlisted, rfl⟩

end Source

end Extract

namespace Document

open Extract Relation Parents

/-- Nothing in a plain tree stands within itself. -/
theorem not_selfEmbedding_plain (tree : Value) (items : List (String × List (Value × Value))) :
    ¬ SelfEmbedding (plain tree).source items := by
  rintro ⟨-, -, data, -, hcycle⟩
  have hlower : ∀ {m n : List (Value × Value)}, TransGen (Nests .tree) m n →
      Value.heightEntries n < Value.heightEntries m := by
    intro m n h
    induction h with
    | single hstep =>
      obtain ⟨id, hid⟩ := hstep
      exact height_lt_of_defined hid
    | tail _ hstep ih =>
      obtain ⟨id, hid⟩ := hstep
      exact Nat.lt_trans (height_lt_of_defined hid) ih
  exact Nat.lt_irrefl _ (hlower hcycle)

/-- A dictionary that was extracted is a list in preorder, whatever the document is like. -/
theorem entries_of_extract {doc : Document} {d : Dictionary} (h : doc.extract.result = .ok d) :
    ∃ entries listed, topEntries doc.source doc.root = .ok entries ∧
      Listing doc.source (topMaps entries) listed ∧
      d.entries = listed.map fun e => (e.1, ownPattern doc.source e.2) := by
  have hrun := h
  rw [extract_eq_run, result_run] at hrun
  obtain ⟨entries, htop, -⟩ := except_bind_ok.1 hrun
  obtain ⟨steps, hwalk, hextract⟩ := result_extract_eq doc htop
  rw [h] at hextract
  cases hfirst : firstOffence? doc.source [] steps with
  | some cause =>
    rw [hfirst] at hextract
    cases hextract
  | none =>
    rw [hfirst] at hextract
    obtain rfl := Except.ok.inj hextract
    obtain ⟨hon, hfinite⟩ := inOrder_of_firstOffence? hfirst
    have hnodup : ((entered steps).map (·.1)).Nodup := by
      rw [firstOffence?_eq_firstRepeat? hon hfinite, Option.map_eq_none_iff,
        firstRepeat?_eq_none_iff] at hfirst
      exact hfirst.1
    exact ⟨entries, entered steps, htop, listing_of_walk hwalk hon,
      entries_foldl_carry hwalk hon hnodup⟩

/-- **Extraction is flattening in preorder**, unless an id repeats an earlier one. -/
theorem extract_flattens (doc : Document) {entries : List (Value × Slot doc.Node)}
    (h : topEntries doc.source doc.root = .ok entries)
    (hnested : ¬ SelfEmbedding doc.source (topMaps entries)) :
    ∃ listed, Listing doc.source (topMaps entries) listed ∧
      ((∀ e ∈ listed, hasInfiniteIndex (extendsOf doc.source e.2) = false) →
        ((∃ d, doc.extract.result = .ok d) ↔ (listed.map (·.1)).Nodup) ∧
        (∀ d, doc.extract.result = .ok d → Flattens doc.source listed d) ∧
        ∀ before e after, listed = before ++ e :: after → (before.map (·.1)).Nodup →
          e.1 ∈ before.map (·.1) → doc.extract.result = .error (.duplicatePattern e.1)) ∧
      ∀ m n, SameOutside doc.source m n → ownPattern doc.source m = ownPattern doc.source n := by
  obtain ⟨steps, hwalk, hextract⟩ := result_extract_eq doc h
  have hon : Unrepeated doc.source steps := by
    intro trail id data hmem
    rw [Bool.eq_false_iff]
    intro hrepeat
    obtain ⟨⟨item, hitem, hreach⟩, hcycle⟩ := nested_of_onTrail hwalk hmem hrepeat
    exact hnested ⟨item, hitem, data, hreach, hcycle⟩
  have hlisting := listing_of_walk hwalk hon
  refine ⟨entered steps, hlisting, fun hfinite => ?_, fun m n => ownPattern_of_sameOutside⟩
  have hfirst : firstOffence? doc.source [] steps =
      (firstRepeat? [] ((entered steps).map (·.1))).map .duplicatePattern :=
    firstOffence?_eq_firstRepeat? hon fun id data hmem =>
      hfinite _ (hwalk.mem_entered_of_leave hmem)
  have hnone : firstRepeat? [] ((entered steps).map (·.1)) = none ↔
      ((entered steps).map (·.1)).Nodup := by
    simp [firstRepeat?_eq_none_iff]
  rw [hfirst] at hextract
  refine ⟨?_, fun d hd => ?_, fun before e after hsplit hbefore he => ?_⟩
  · rw [hextract, ← hnone]
    cases firstRepeat? [] ((entered steps).map (·.1)) with
    | none => exact ⟨fun _ => rfl, fun _ => ⟨_, rfl⟩⟩
    | some id => exact ⟨fun ⟨_, hd⟩ => (nomatch hd), fun hid => (nomatch hid)⟩
  · rw [hextract] at hd
    cases hrepeat : firstRepeat? [] ((entered steps).map (·.1)) with
    | some id =>
      rw [hrepeat] at hd
      cases hd
    | none =>
      rw [hrepeat] at hd
      obtain rfl := Except.ok.inj hd
      exact flattens_of_entries hlisting hfinite (entries_foldl_carry hwalk hon (hnone.1 hrepeat))
  · have hrepeat : firstRepeat? [] ((entered steps).map (·.1)) = some e.1 := by
      rw [hsplit, List.map_append, List.map_cons]
      exact firstRepeat?_of_mem hbefore (fun _ _ => List.not_mem_nil) he
    rw [hextract, hrepeat]
    rfl

/-- A pattern with a component that is defined in place, by a map with such a component itself. -/
def twiceNested : Value :=
  .map [
    (.str "p", .map [
      (.str "inner", .map [
        (.str "a", .map [
          (.str "pattern_definition", .null),
          (.str "outer", .map [(.str "b", .map [(.str "pattern_definition", .map [])])])]),
        (.str "x", .null)])]),
    (.str "q", .map [(.str "extends", .str "p")])]

theorem extract_flattens_twiceNested :
    ∃ entries, topEntries .tree twiceNested.slot = .ok entries ∧
      ¬ SelfEmbedding .tree (topMaps entries) ∧
      ∃ listed d, (plain twiceNested).extract.result = .ok d ∧
        listed.map (·.1) = ["p", "a_inline", "b_inline", "q"] ∧ Flattens .tree listed d := by
  have htop : topEntries .tree twiceNested.slot = .ok (Source.tree.entries _) := rfl
  have hnested := not_selfEmbedding_plain twiceNested
  obtain ⟨listed, hlisting, hflat, -⟩ := extract_flattens (plain twiceNested) htop (hnested _)
  have hexpected :=
    hlisting.unique (.visit (.visit (.visit .done .done) .done) (.visit .done .done))
  have hids : listed.map (·.1) = ["p", "a_inline", "b_inline", "q"] := by
    rw [hexpected]
    rfl
  have hfinite : ∀ e ∈ listed, hasInfiniteIndex (extendsOf .tree e.2) = false := by
    rw [hexpected]
    exact List.forall_mem_cons.2 ⟨rfl, List.forall_mem_cons.2 ⟨rfl,
      List.forall_mem_cons.2 ⟨rfl, List.forall_mem_cons.2 ⟨rfl, nofun⟩⟩⟩⟩
  obtain ⟨hok, hflattens, -⟩ := hflat hfinite
  obtain ⟨d, hd⟩ := hok.2 (by rw [hids]; decide)
  exact ⟨_, htop, hnested _, listed, d, hd, hids, hflattens d hd⟩

end Document

end LayoutGrammar
