import NomadDev.Redaction
import NomadDev.PatchPreview

namespace NomadDev.Event

open Fsops Tools

-- `int(n)` of a JSON number.
def truncInt (q : ℚ) : ℤ := q.num.tdiv q.den

def Value.toArg : Value → Arg
  | .str s => .str s
  | .num q => .num (truncInt q)
  | _ => .other

def argsOf (args : Option Fields) : Args := fun key =>
  ((args.getD []).find? fun f => f.1 == key).map fun f => f.2.toArg

structure ApprovalServer where
  policy : Policy
  timeoutMs : ℕ
  fsops : Option Engine

structure Preview where
  path : Bytes
  lineNumber : ℕ
  unifiedDiff : Bytes
  verifyCommand : Option Bytes

structure ToolApprovalRequestPayload where
  tool : String
  args : Option Fields
  (reason pendingCommandID : String)
  timeoutMs : ℕ
  preview : Option Preview

structure Stamp where
  (approvalID pendingCommandID : String)
  ts : ℕ

structure Envelope where
  (id correlationID : String)
  ts : ℕ
  payload : ToolApprovalRequestPayload

variable (srv : ApprovalServer)

def buildApprovalPreview (d : Disk) (tool : String) (args : Option Fields) : Except PatchErr (Option Preview) :=
  if tool ≠ toolApplyCodePatch then .ok none
  else match srv.fsops with
    | none => .ok none
    | some e =>
      match e.previewApplyCodePatch [] d (argsOf args) with
      | .error err => .error err
      | .ok pv =>
        let vc := verifyCommand (argsOf args)
        .ok (some ⟨pv.path, pv.lineNumber, pv.unifiedDiff, if vc = [] then none else some vc⟩)

def approvalEnvelope (st : Stamp) (d : Disk) (tool : String) (args : Option Fields) : Option Envelope :=
  match requiresApproval srv.policy tool with
  | none => none
  | some reason =>
    match buildApprovalPreview srv d tool args with
    | .error _ => none
    | .ok preview => some {
        id := st.approvalID, correlationID := st.pendingCommandID, ts := st.ts
        payload := {
          tool, args := args.map redactFields, reason, pendingCommandID := st.pendingCommandID
          timeoutMs := srv.timeoutMs, preview } }

def requestApproval (st : Stamp) (d : Disk) (call : ToolCall (Option Fields)) : Option Envelope :=
  approvalEnvelope srv st d call.tool call.args

def gateDirectCommand (st : Stamp) (d : Disk) (p : CommandRequest (Option Fields)) : Option Envelope :=
  approvalEnvelope srv st d p.tool p.args

inductive SameButAssignments : Option Fields → Option Fields → Prop
  | nil : SameButAssignments none none
  | map {fs gs : Fields}
      (h : SameFields (fun _ => False) (fun k s t => s = t ∨ isScriptKey k = true ∧ SameButMasked s t) fs gs) :
      SameButAssignments (some fs) (some gs)

variable {a b : Option Fields} {srv : ApprovalServer} {tool key : String} {text : String → Bytes → Bytes → Prop}
  {d : Disk}

theorem SameButAssignments.redact_eq (h : SameButAssignments a b) : a.map redactFields = b.map redactFields := by
  cases h with
  | nil => rfl
  | map h =>
    have hid : Hidden (fun _ => False) (fun k s t => s = t ∨ isScriptKey k = true ∧ SameButMasked s t) := by
      refine ⟨fun _ hk => hk.elim, ?_⟩
      rintro k s t (rfl | ⟨hk, hst⟩)
      · rfl
      · simp only [redactString, hk, if_true, hst.redactScript_eq]
    simp [h.redact_eq hid]

theorem Same.toArg_eq {v w : Value} (htext : ∀ s t, text key s t → s = t) (h : Same (fun _ => False) text key v w) :
    v.toArg = w.toArg := by
  cases h with
  | null | bool | num | arr | obj => rfl
  | str h => rw [htext _ _ h]

theorem SameFields.argsOf_eq (htext : ∀ s t, text key s t → s = t) {fs gs : Fields} :
    SameFields (fun _ => False) text fs gs → argsOf (some fs) key = argsOf (some gs) key
  | .nil => rfl
  | @SameFields.cons _ _ k v w fs gs h hs => by
    have ih := hs.argsOf_eq htext
    simp only [argsOf, Option.getD_some] at ih ⊢
    by_cases hk : k = key
    · subst hk
      rw [List.find?_cons_of_pos (by simp), List.find?_cons_of_pos (by simp)]
      simp [h.toArg_eq htext]
    · rwa [List.find?_cons_of_neg (by simpa using hk), List.find?_cons_of_neg (by simpa using hk)]

theorem SameButAssignments.argsOf_eq (h : SameButAssignments a b) (hkey : isScriptKey key = false) :
    argsOf a key = argsOf b key := by
  cases h with
  | nil => rfl
  | map h =>
    refine h.argsOf_eq ?_
    rintro s t (rfl | ⟨hk, -⟩)
    · rfl
    · cases hkey.symm.trans hk

theorem previewApplyCodePatch_congr (e : Engine) (sid : Bytes) (d : Disk) {a b : Args}
    (h : ∀ key ∈ ["file_path", "search_string", "replace_string"], a key = b key) :
    e.previewApplyCodePatch sid d a = e.previewApplyCodePatch sid d b := by
  have hpath := h "file_path" (by simp)
  have hsearch := h "search_string" (by simp)
  have hreplace := h "replace_string" (by simp)
  simp only [Engine.previewApplyCodePatch, Engine.computeApplyCodePatch, argString, argStringAllowEmpty, hpath,
    hsearch, hreplace]

theorem SameButAssignments.preview_eq (h : SameButAssignments a b) (e : Engine) (sid : Bytes)
    (d : Disk) : e.previewApplyCodePatch sid d (argsOf a) = e.previewApplyCodePatch sid d (argsOf b) := by
  have hkeys : ∀ key ∈ ["file_path", "search_string", "replace_string"], isScriptKey key = false := by decide +kernel
  exact previewApplyCodePatch_congr e sid d fun key hkey => h.argsOf_eq (hkeys key hkey)

theorem buildApprovalPreview_eq_iff (hsame : SameButAssignments a b) {pa : Option Preview}
    (ha : buildApprovalPreview srv d tool a = .ok pa) :
    ∃ pb, buildApprovalPreview srv d tool b = .ok pb ∧ (pa = pb ↔ (tool = toolApplyCodePatch → srv.fsops.isSome = true →
      verifyCommand (argsOf a) = verifyCommand (argsOf b))) := by
  unfold buildApprovalPreview at ha ⊢
  by_cases htool : tool = toolApplyCodePatch
  · rw [if_neg (not_not_intro htool)] at ha ⊢
    cases he : srv.fsops with
    | none =>
      rw [he] at ha
      cases ha
      exact ⟨none, rfl, by simp⟩
    | some e =>
      rw [he] at ha
      simp only [← hsame.preview_eq] at ha ⊢
      cases hpv : e.previewApplyCodePatch [] d (argsOf a) with
      | error err =>
        rw [hpv] at ha
        cases ha
      | ok pv =>
        rw [hpv] at ha
        cases ha
        refine ⟨_, rfl, ?_⟩
        simp only [Option.some.injEq, Preview.mk.injEq, true_and, htool, Option.isSome_some, forall_const]
        by_cases hva : verifyCommand (argsOf a) = [] <;> by_cases hvb : verifyCommand (argsOf b) = [] <;>
          simp [hva, hvb, Ne.symm]
  · rw [if_pos htool] at ha ⊢
    cases ha
    exact ⟨none, rfl, by simp [htool]⟩

theorem approvalEnvelope_eq_iff {st : Stamp} (hsame : SameButAssignments a b)
    (hsent : (approvalEnvelope srv st d tool a).isSome = true) :
    approvalEnvelope srv st d tool a = approvalEnvelope srv st d tool b ↔
      (tool = toolApplyCodePatch → srv.fsops.isSome = true → verifyCommand (argsOf a) = verifyCommand (argsOf b)) := by
  unfold approvalEnvelope at hsent ⊢
  cases hreason : requiresApproval srv.policy tool with
  | none =>
    rw [hreason] at hsent
    cases hsent
  | some reason =>
    rw [hreason] at hsent
    cases ha : buildApprovalPreview srv d tool a with
    | error err =>
      simp only [ha] at hsent
      cases hsent
    | ok pa =>
      obtain ⟨pb, hb, hiff⟩ := buildApprovalPreview_eq_iff hsame ha
      simp only [hb, ← hsame.redact_eq, Option.some.injEq, Envelope.mk.injEq, ToolApprovalRequestPayload.mk.injEq,
        true_and]
      exact hiff

theorem approval_hides_assignments_iff (srv : ApprovalServer) (st : Stamp) (d : Disk) (callID tool : String)
    {a b : Option Fields} (hsame : SameButAssignments a b) (hsent : (approvalEnvelope srv st d tool a).isSome = true) :
    (requestApproval srv st d ⟨callID, tool, a⟩ = requestApproval srv st d ⟨callID, tool, b⟩ ↔
      (tool = toolApplyCodePatch → srv.fsops.isSome = true → verifyCommand (argsOf a) = verifyCommand (argsOf b))) ∧
    (gateDirectCommand srv st d ⟨tool, a⟩ = gateDirectCommand srv st d ⟨tool, b⟩ ↔
      (tool = toolApplyCodePatch → srv.fsops.isSome = true → verifyCommand (argsOf a) = verifyCommand (argsOf b))) :=
  ⟨approvalEnvelope_eq_iff hsame hsent, approvalEnvelope_eq_iff hsame hsent⟩

def demoServer : ApprovalServer := ⟨⟨[toolExecuteScript, toolApplyCodePatch], false⟩, 60000, some ⟨[ws], true⟩⟩

def demoStamp : Stamp := ⟨"a1", "c1", 0⟩

def tokenScript (token : String) : Bytes := utf8 ("export API_TOKEN=" ++ token ++ " && make test")

def scriptArgs (token : String) : Option Fields := some [("script", .str (tokenScript token))]

def patchArgs (token : String) : Option Fields :=
  some [("file_path", .str (utf8 "report")), ("replace_string", .str [98]), ("search_string", .str [97]),
    ("verify_command", .str (tokenScript token))]

theorem tokenScript_sameButMasked : SameButMasked (tokenScript "abc123") (tokenScript "xyz789") := by
  have habc : segments (tokenScript "abc123") = .assign ⟨utf8 "export ", utf8 "API_TOKEN", utf8 "abc123"⟩ ::
      (segments (tokenScript "abc123")).tail := by decide +kernel
  have hxyz : segments (tokenScript "xyz789") = .assign ⟨utf8 "export ", utf8 "API_TOKEN", utf8 "xyz789"⟩ ::
      (segments (tokenScript "abc123")).tail := by decide +kernel
  rw [SameButMasked, habc, hxyz]
  exact .cons (.masked _ _ (by decide +kernel)) (List.forall₂_same.mpr fun seg _ => .same seg)

theorem scriptArgs_same : SameButAssignments (scriptArgs "abc123") (scriptArgs "xyz789") :=
  .map (.cons (.str (.inr ⟨by decide +kernel, tokenScript_sameButMasked⟩)) .nil)

theorem patchArgs_same : SameButAssignments (patchArgs "abc123") (patchArgs "xyz789") :=
  .map (.cons (.str (.inl rfl)) (.cons (.str (.inl rfl)) (.cons (.str (.inl rfl))
    (.cons (.str (.inr ⟨by decide +kernel, tokenScript_sameButMasked⟩)) .nil))))

def Envelope.verifyCommand (env : Envelope) : Option Bytes := env.payload.preview.bind (·.verifyCommand)

theorem script_token_hidden :
    (approvalEnvelope demoServer demoStamp (demoDisk twoReports) toolExecuteScript (scriptArgs "abc123")).isSome = true ∧
    requestApproval demoServer demoStamp (demoDisk twoReports) ⟨"c1", toolExecuteScript, scriptArgs "abc123"⟩ =
      requestApproval demoServer demoStamp (demoDisk twoReports) ⟨"c1", toolExecuteScript, scriptArgs "xyz789"⟩ := by
  have hsent : (approvalEnvelope demoServer demoStamp (demoDisk twoReports) toolExecuteScript
      (scriptArgs "abc123")).isSome = true := by decide +kernel
  refine ⟨hsent, (approval_hides_assignments_iff _ _ _ _ _ scriptArgs_same hsent).1.mpr fun htool => ?_⟩
  exact absurd htool (by decide)

theorem verify_command_token_shown : SameButAssignments (patchArgs "abc123") (patchArgs "xyz789") ∧
    (requestApproval demoServer demoStamp (demoDisk twoReports)
        ⟨"c1", toolApplyCodePatch, patchArgs "abc123"⟩).bind Envelope.verifyCommand =
      some (utf8 "export API_TOKEN=abc123 && make test") ∧
    requestApproval demoServer demoStamp (demoDisk twoReports) ⟨"c1", toolApplyCodePatch, patchArgs "abc123"⟩ ≠
      requestApproval demoServer demoStamp (demoDisk twoReports) ⟨"c1", toolApplyCodePatch, patchArgs "xyz789"⟩ ∧
    gateDirectCommand demoServer demoStamp (demoDisk twoReports) ⟨toolApplyCodePatch, patchArgs "abc123"⟩ ≠
      gateDirectCommand demoServer demoStamp (demoDisk twoReports) ⟨toolApplyCodePatch, patchArgs "xyz789"⟩ ∧
    redactString "verify_command" (tokenScript "abc123") = utf8 "export API_TOKEN=[REDACTED] && make test" := by
  have hne : approvalEnvelope demoServer demoStamp (demoDisk twoReports) toolApplyCodePatch (patchArgs "abc123") ≠
      approvalEnvelope demoServer demoStamp (demoDisk twoReports) toolApplyCodePatch (patchArgs "xyz789") := by
    intro h
    have hshown := congrArg (Option.bind · Envelope.verifyCommand) h
    exact absurd hshown (by decide +kernel)
  exact ⟨patchArgs_same, by decide +kernel, hne, hne, by decide +kernel⟩

def Envelope.shown (env : Envelope) : Option Fields × Option Preview := (env.payload.args, env.payload.preview)

inductive DifferOnlyInPath : Fields → Fields → Prop
  | mk (before after : Fields) {v w : Bytes} (h : v ≠ w) :
      DifferOnlyInPath (before ++ ("path", .str v) :: after) (before ++ ("path", .str w) :: after)

structure PoolArgs where
  (before after : Fields)
  (tasksBefore tasksAfter : List Value)
  (taskBefore taskAfter : Fields)

def PoolArgs.withPaths (p : PoolArgs) (paths : List Bytes) : Fields :=
  let task := p.taskBefore ++ ("paths", .arr (paths.map .str)) :: p.taskAfter
  p.before ++ ("tasks", .arr (p.tasksBefore ++ .obj task :: p.tasksAfter)) :: p.after

inductive DifferOnlyInTaskPaths : Fields → Fields → Prop
  | mk (p : PoolArgs) {v w : List Bytes} (h : v ≠ w) : DifferOnlyInTaskPaths (p.withPaths v) (p.withPaths w)

theorem redactFields_replace {key : String} {v w : Value} (h : v.redact key = w.redact key) (before after : Fields) :
    redactFields (before ++ (key, v) :: after) = redactFields (before ++ (key, w) :: after) := by
  simp [redactFields_eq_map, h]

theorem DifferOnlyInPath.redact_eq {a b : Fields} (h : DifferOnlyInPath a b) : redactFields a = redactFields b := by
  have hpath : isSensitiveKey "path" = true := by decide +kernel
  obtain ⟨before, after, -⟩ := h
  refine redactFields_replace ?_ before after
  rw [Value.redact_of_sensitive _ hpath, Value.redact_of_sensitive _ hpath]

theorem DifferOnlyInTaskPaths.redact_eq {a b : Fields} (h : DifferOnlyInTaskPaths a b) :
    redactFields a = redactFields b := by
  have hpaths : isSensitiveKey "paths" = true := by decide +kernel
  obtain @⟨p, v, w, -⟩ := h
  refine redactFields_replace ?_ p.before p.after
  have htask : redactFields (p.taskBefore ++ ("paths", .arr (v.map .str)) :: p.taskAfter) =
      redactFields (p.taskBefore ++ ("paths", .arr (w.map .str)) :: p.taskAfter) := by
    refine redactFields_replace ?_ p.taskBefore p.taskAfter
    rw [Value.redact_of_sensitive _ hpaths, Value.redact_of_sensitive _ hpaths]
  simp [Value.redact, redactItems_eq_map, htask]

theorem approvalEnvelope_shown (htool : tool ≠ toolApplyCodePatch)
    (hgated : (requiresApproval srv.policy tool).isSome = true) (st : Stamp) (d : Disk) (args : Option Fields) :
    (approvalEnvelope srv st d tool args).map Envelope.shown = some (args.map redactFields, none) := by
  obtain ⟨reason, hreason⟩ := Option.isSome_iff_exists.mp hgated
  simp [approvalEnvelope, hreason, buildApprovalPreview, htool, Envelope.shown]

theorem approval_card_hides_target (srv : ApprovalServer) :
    ((requiresApproval srv.policy toolWritePatch).isSome = true → ∀ a b, DifferOnlyInPath a b →
      ∃ card, ∀ args ∈ [a, b], ∀ st d callID,
        (requestApproval srv st d ⟨callID, toolWritePatch, some args⟩).map Envelope.shown = some card ∧
        (gateDirectCommand srv st d ⟨toolWritePatch, some args⟩).map Envelope.shown = some card) ∧
    ((requiresApproval srv.policy toolDispatchWorkerPool).isSome = true → ∀ a b, DifferOnlyInTaskPaths a b →
      ∃ card, ∀ args ∈ [a, b], ∀ st d callID,
        (requestApproval srv st d ⟨callID, toolDispatchWorkerPool, some args⟩).map Envelope.shown = some card ∧
        (gateDirectCommand srv st d ⟨toolDispatchWorkerPool, some args⟩).map Envelope.shown = some card) := by
  have hcard : ∀ {tool a b}, tool ≠ toolApplyCodePatch → (requiresApproval srv.policy tool).isSome = true →
      redactFields a = redactFields b → ∃ card, ∀ args ∈ [a, b], ∀ st d (callID : String),
        (requestApproval srv st d ⟨callID, tool, some args⟩).map Envelope.shown = some card ∧
        (gateDirectCommand srv st d ⟨tool, some args⟩).map Envelope.shown = some card := by
    intro tool a b htool hgated hab
    refine ⟨(some (redactFields a), none), fun args hargs st d callID => ?_⟩
    have hargs : redactFields args = redactFields a := by
      rcases List.mem_pair.mp hargs with rfl | rfl
      · rfl
      · exact hab.symm
    have hshown := approvalEnvelope_shown htool hgated st d (some args)
    rw [Option.map_some, hargs] at hshown
    exact ⟨hshown, hshown⟩
  exact ⟨fun hgated a b h => hcard (by decide) hgated h.redact_eq,
    fun hgated a b h => hcard (by decide) hgated h.redact_eq⟩

def gatedServer : ApprovalServer := ⟨⟨[toolWritePatch, toolDispatchWorkerPool], false⟩, 60000, none⟩

def writeArgs (path : String) : Fields := [("content", .str (utf8 "x")), ("path", .str (utf8 path))]

def poolArgs (path : String) : Fields :=
  PoolArgs.withPaths ⟨[], [], [], [], [("id", .str (utf8 "alpha"))], [("prompt", .str (utf8 "tidy up"))]⟩ [utf8 path]

theorem deploy_script_not_named : DifferOnlyInPath (writeArgs "README.md") (writeArgs "deploy.sh") ∧
    (∀ path ∈ ["README.md", "deploy.sh"],
      (requestApproval gatedServer demoStamp (demoDisk twoReports)
          ⟨"c1", toolWritePatch, some (writeArgs path)⟩).map Envelope.shown =
        some (some [("content", .str (utf8 "x")), ("path", .str (utf8 "[REDACTED]"))], none)) ∧
    DifferOnlyInTaskPaths (poolArgs "README.md") (poolArgs "deploy.sh") ∧
    ∀ path ∈ ["README.md", "deploy.sh"],
      (requestApproval gatedServer demoStamp (demoDisk twoReports)
          ⟨"c1", toolDispatchWorkerPool, some (poolArgs path)⟩).map Envelope.shown =
        some (some [("tasks", .arr [.obj [("id", .str (utf8 "alpha")), ("paths", .str (utf8 "[REDACTED]")),
          ("prompt", .str (utf8 "tidy up"))]])], none) := by
  have hwrite := approvalEnvelope_shown (show toolWritePatch ≠ toolApplyCodePatch by decide)
    (show (requiresApproval gatedServer.policy toolWritePatch).isSome = true by decide) demoStamp (demoDisk twoReports)
  have hpool := approvalEnvelope_shown (show toolDispatchWorkerPool ≠ toolApplyCodePatch by decide)
    (show (requiresApproval gatedServer.policy toolDispatchWorkerPool).isSome = true by decide) demoStamp
    (demoDisk twoReports)
  refine ⟨.mk [_] [] (by decide), fun path _ => ?_, .mk _ (by decide), fun path _ => ?_⟩
  · exact (hwrite (some (writeArgs path))).trans rfl
  · exact (hpool (some (poolArgs path))).trans rfl

end NomadDev.Event
