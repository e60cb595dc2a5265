import ImAcc.ConfigPrase

-- config_prase.c over packages of any sections.
namespace ImAcc
open JsonC

-- Contexts C, packages P, sections S; load is given none for a file that does not parse,
-- toBlob is uci_to_blob with blobmsg_parse.
structure Libuci (C P S : Type) where
  allocContext : Option C
  lookupPackage : C → Option P
  unload : C → P → C
  load : C → Option (List S) → C × Option P
  sections : P → List S
  type : S → Bytes
  toBlob : S → UciIsacc

-- A package that is unloaded is found no more; one that is not loaded is read from the file.
structure Libuci.Documented (uci : Libuci C P S) : Prop where
  fresh : ∀ ctx ∈ uci.allocContext, uci.lookupPackage ctx = none
  unloaded : ∀ ctx, ∀ p ∈ uci.lookupPackage ctx, uci.lookupPackage (uci.unload ctx p) = none
  loads : ∀ ctx file, uci.lookupPackage ctx = none → (uci.load ctx file).2.map uci.sections = file

section
variable (uci : Libuci C P S)

-- none is undefined: there was no memory for a context.
def configInitPackage (uciCtx : Option C) (file : Option (List S)) : Option (C × Option P) :=
  let ctx := match uciCtx with
    | none => uci.allocContext
    | some ctx => match uci.lookupPackage ctx with
      | none => some ctx
      | some p => some (uci.unload ctx p)
  ctx.map fun ctx => uci.load ctx file

def configParseImAcc (s : S) (r : Records) : Records :=
  {readRespIsacc {r with uci := uci.toBlob s} with uci := r.uci}

def resp (s : S) : Bool := uci.type s = bytes "resp"

-- The loop over sections reads through the NULL of a package that does not load.
def configRead (uciCtx : Option C) (file : Option (List S)) (r : Records) : Option (C × Records) :=
  (configInitPackage uci uciCtx file).bind fun (ctx,p) => p.map fun p =>
    (ctx,(uci.sections p).foldl (fun r s => if resp uci s then configParseImAcc uci s r else r) r)

def configReads (uciCtx : Option C) (r : Records) : List (Option (List S)) → Option Records
  | [] => some r
  | file :: rest => (configRead uci uciCtx file r).bind fun read => configReads (some read.1) read.2 rest

def UciIsacc.over (later earlier : UciIsacc) : UciIsacc where
  imAccState := later.imAccState.or earlier.imAccState
  imIsAcc := later.imIsAcc.or earlier.imIsAcc
  imIsp := later.imIsp.or earlier.imIsp
  imCurBandwidth := later.imCurBandwidth.or earlier.imCurBandwidth
  imMaxBandwidth := later.imMaxBandwidth.or earlier.imMaxBandwidth
  imAccBandwidth := later.imAccBandwidth.or earlier.imAccBandwidth
  imAccRemaintime := later.imAccRemaintime.or earlier.imAccRemaintime
  imIp := later.imIp.or earlier.imIp

def merged (earlier : UciIsacc) (sections : List S) : UciIsacc :=
  sections.foldl (fun u s => if resp uci s then (uci.toBlob s).over u else u) earlier

end

def readAs (u : UciIsacc) (r : Records) : Records := {readRespIsacc {r with uci := u} with uci := r.uci}

variable {uci : Libuci C P S}

theorem readAs_empty (r : Records) : readAs default r = r := rfl

theorem readAs_over (later earlier : UciIsacc) (r : Records) :
    readAs later (readAs earlier r) = readAs (later.over earlier) r := by
  simp [readAs,readRespIsacc,UciIsacc.over,Option.getD_or]

theorem sections_read (sections : List S) (u : UciIsacc) (r : Records) :
    sections.foldl (fun r s => if resp uci s then configParseImAcc uci s r else r) (readAs u r) =
      readAs (merged uci u sections) r := by
  induction sections generalizing u with
  | nil => rfl
  | cons s rest ih =>
    rw [List.foldl_cons,merged,List.foldl_cons,← merged]
    split
    · rw [← ih,← readAs_over]
      rfl
    · exact ih u

theorem merged_append (u : UciIsacc) (first second : List S) :
    merged uci u (first ++ second) = merged uci (merged uci u first) second :=
  List.foldl_append

theorem merged_filter (u : UciIsacc) (sections : List S) :
    merged uci u sections = ((sections.filter (resp uci)).map uci.toBlob).foldl (fun u options => options.over u) u := by
  rw [merged,List.foldl_map,List.foldl_filter]

theorem over_empty (u : UciIsacc) : u.over default = u := by
  cases u
  simp [UciIsacc.over,show (default : UciIsacc) = ⟨none,none,none,none,none,none,none,none⟩ from rfl]

theorem configInitPackage_fresh (documented : uci.Documented) (allocated : (uciCtx.or uci.allocContext).isSome = true)
    (file : Option (List S)) :
    ∃ ctx p, configInitPackage uci uciCtx file = some (ctx,p) ∧ p.map uci.sections = file := by
  have loaded {ctx : C} (absent : uci.lookupPackage ctx = none) :
      ∃ after p, (some ctx).map (fun ctx => uci.load ctx file) = some (after,p) ∧ p.map uci.sections = file :=
    ⟨_,_,rfl,documented.loads ctx file absent⟩
  unfold configInitPackage
  cases uciCtx with
  | none =>
    obtain ⟨ctx,fresh⟩ := Option.isSome_iff_exists.mp allocated
    have created : uci.allocContext = some ctx := fresh
    dsimp only
    rw [created]
    exact loaded (documented.fresh ctx created)
  | some ctx =>
    cases found : uci.lookupPackage ctx with
    | none =>
      dsimp only
      rw [found]
      exact loaded found
    | some p =>
      dsimp only
      rw [found]
      exact loaded (documented.unloaded ctx p found)

theorem configRead_fresh (documented : uci.Documented) (allocated : (uciCtx.or uci.allocContext).isSome = true)
    (file : Option (List S)) (u : UciIsacc) (r : Records) : ∃ ctx, configRead uci uciCtx file (readAs u r) =
      file.map fun sections => (ctx,readAs (merged uci u sections) r) := by
  obtain ⟨ctx,p,init,rfl⟩ := configInitPackage_fresh documented allocated file
  refine ⟨ctx,?_⟩
  rw [configRead,init,Option.bind_some,Option.map_map]
  refine congrArg (p.map ·) (funext fun p => ?_)
  exact congrArg (ctx,·) (sections_read (uci.sections p) u r)

theorem configReads_from (documented : uci.Documented) (allocated : (uciCtx.or uci.allocContext).isSome = true)
    (files : List (Option (List S))) (u : UciIsacc) (r : Records) : configReads uci uciCtx (readAs u r) files =
      (files.mapM id).map fun read => readAs (merged uci u read.flatten) r := by
  induction files generalizing uciCtx u with
  | nil => rfl
  | cons file rest ih =>
    obtain ⟨ctx,read⟩ := configRead_fresh documented allocated file u r
    rw [configReads,read,List.mapM_cons]
    cases file with
    | none => rfl
    | some sections =>
      have allocated : ((some ctx).or uci.allocContext).isSome = true := rfl
      have later := ih allocated (merged uci u sections)
      simp only [Option.map_some,Option.bind_some,id,later,Option.pure_def,Option.bind_eq_bind,Option.map_bind]
      cases rest.mapM id with
      | none => rfl
      | some read => simp [merged_append]

-- Each option is what the last resp section that sets it says, in all that was ever read;
-- where there is one such section a read is configReadImAcc.
theorem configReads_exact (documented : uci.Documented) (allocated : (uciCtx.or uci.allocContext).isSome = true) :
    (∀ files r, configReads uci uciCtx r files =
      (files.mapM id).map fun read => readAs (merged uci default read.flatten) r) ∧
    ∀ sections r, (sections.filter (resp uci)).map uci.toBlob = [r.uci] →
      (configRead uci uciCtx (some sections) r).map Prod.snd = some (configReadImAcc r) := by
  refine ⟨fun files r => configReads_from documented allocated files default r,fun sections r one => ?_⟩
  obtain ⟨ctx,read⟩ := configRead_fresh documented allocated (some sections) default r
  rw [readAs_empty] at read
  rw [read,Option.map_some,Option.map_some,merged_filter,one,List.foldl_cons,List.foldl_nil,over_empty]
  rfl

structure UciSection where
  type : Bytes
  options : UciIsacc

-- One package in memory; one that is there is not loaded again, but UCI_ERR_DUPLICATE is said.
def oneConfig : Libuci (Option (List UciSection)) (List UciSection) UciSection where
  allocContext := some none
  lookupPackage ctx := ctx
  unload _ _ := none
  load ctx file := if ctx.isSome then (ctx,none) else (file,file)
  sections p := p
  type := UciSection.type
  toBlob := UciSection.options

theorem oneConfig_documented : oneConfig.Documented where
  fresh ctx created := Option.some.inj created ▸ rfl
  unloaded _ _ _ := rfl
  loads ctx file absent := by
    obtain rfl : ctx = none := absent
    exact Option.map_id'

theorem configReads_two :
    let bandwidth : UciSection := ⟨bytes "resp",{(default : UciIsacc) with imCurBandwidth := some 100,imIsp := some 1}⟩
    let isp : UciSection := ⟨bytes "resp",{(default : UciIsacc) with imIsp := some 2}⟩
    let other : UciSection := ⟨bytes "cmd",{(default : UciIsacc) with imIsp := some 3}⟩
    let r := Records.boot 32 isp.options
    configReads oneConfig none r [some [bandwidth],some [isp,other]] =
        some (readAs {(default : UciIsacc) with imCurBandwidth := some 100,imIsp := some 2} r) ∧
      (configRead oneConfig none (some [other,isp]) r).map Prod.snd = some (configReadImAcc r) := by
  intro bandwidth isp other r
  have allocated : ((none : Option _).or oneConfig.allocContext).isSome = true := rfl
  have both := configReads_exact oneConfig_documented allocated
  exact ⟨both.1 [some [bandwidth],some [isp,other]] r,both.2 [other,isp] r (by decide)⟩

end ImAcc
