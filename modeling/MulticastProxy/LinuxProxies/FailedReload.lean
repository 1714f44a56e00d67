import MulticastProxy.LinuxClient.Config
import MulticastProxy.LinuxServer.Reload

/-!
# A `reload` that fails

Both proxies empty their table before they read the file. Where the file cannot be used the
proxies run on without any group, and the server has joined its old groups again.
-/

namespace MulticastProxy.LinuxProxies

set_option autoImplicit false

open LinuxServer (Proxy)

section
variable (inetAddr : List Char → UInt32)

/-- A reload of the server proxy that fails leaves the table as it was. -/
def ServerKeepsTable (file : CfgFile LinuxServer.GrpObj) (p : Proxy) : Prop :=
  ∀ rt p' calls, p.reload inetAddr file = .ret (rt, p', calls) → rt ≠ 0 → p'.table = p.table

/-- The same of the client proxy. -/
def ClientKeepsTable (file : CfgFile LinuxClient.GrpObj) (s : LinuxClient.State) : Prop :=
  ∀ rt s', LinuxClient.cfgReload inetAddr file s = .ret (rt, s') → rt ≠ 0 → s' = s

end

variable {inetAddr : List Char → UInt32}

theorem serverKeepsTable_iff (file : CfgFile LinuxServer.GrpObj) (p : Proxy) :
    ServerKeepsTable inetAddr file p ↔ file.HasArray ∨ p.table = LinuxServer.multiNodeInit := by
  by_cases hfile : file.HasArray
  · refine iff_of_true (fun rt p' calls hret hrt => ?_) (Or.inl hfile)
    exact absurd hfile ((Proxy.reload_failed hret).1.mp hrt)
  · rw [or_iff_right hfile]
    have hreload := p.reload_of_not_hasArray inetAddr hfile
    constructor
    · intro hkeep
      exact (hkeep _ _ _ hreload (by decide)).symm
    · intro hempty rt p' calls hret hrt
      obtain ⟨rfl, _⟩ := (Proxy.reload_failed hret).2 hrt
      exact hempty.symm

theorem cfgReload_rt {file : CfgFile LinuxClient.GrpObj} {s s' : LinuxClient.State} {rt : Int}
    (h : LinuxClient.cfgReload inetAddr file s = .ret (rt, s')) (hrt : rt ≠ 0) :
    ¬ file.HasArray := by
  rw [← CfgFile.config_eq_none_iff]
  unfold LinuxClient.cfgReload at h
  cases hcfg : file.config with
  | none => rfl
  | some grpArray =>
    rw [hcfg] at h
    obtain ⟨_, _, hret⟩ := Outcome.bind_eq_ret_iff.mp h
    obtain ⟨rfl, _⟩ := Prod.mk.inj (Outcome.ret.inj hret)
    exact absurd rfl hrt

variable (inetAddr) in
theorem cfgReload_of_not_hasArray {file : CfgFile LinuxClient.GrpObj} (s : LinuxClient.State)
    (h : ¬ file.HasArray) :
    LinuxClient.cfgReload inetAddr file s = .ret (-1, LinuxClient.multiNodeInit) := by
  unfold LinuxClient.cfgReload
  rw [CfgFile.config_eq_none_iff.mpr h]
  rfl

theorem clientKeepsTable_iff (file : CfgFile LinuxClient.GrpObj) (s : LinuxClient.State) :
    ClientKeepsTable inetAddr file s ↔ file.HasArray ∨ s = LinuxClient.multiNodeInit := by
  by_cases hfile : file.HasArray
  · refine iff_of_true (fun rt s' hret hrt => ?_) (Or.inl hfile)
    exact absurd hfile (cfgReload_rt hret hrt)
  · rw [or_iff_right hfile]
    have hreload := cfgReload_of_not_hasArray inetAddr s hfile
    constructor
    · intro hkeep
      exact (hkeep _ _ hreload (by decide)).symm
    · intro hempty rt s' hret _
      rw [hreload] at hret
      obtain ⟨_, rfl⟩ := Prod.mk.inj (Outcome.ret.inj hret)
      exact hempty.symm

/-- A failed reload keeps the table only where there is nothing to lose: the table was empty
before. -/
theorem failed_reload_iff (inetAddr : List Char → UInt32)
    (serverFile : CfgFile LinuxServer.GrpObj) (p : Proxy)
    (clientFile : CfgFile LinuxClient.GrpObj) (s : LinuxClient.State) :
    (ServerKeepsTable inetAddr serverFile p ↔
      serverFile.HasArray ∨ p.table = LinuxServer.multiNodeInit) ∧
    (ClientKeepsTable inetAddr clientFile s ↔
      clientFile.HasArray ∨ s = LinuxClient.multiNodeInit) :=
  ⟨serverKeepsTable_iff serverFile p, clientKeepsTable_iff clientFile s⟩

/-- With one group in the table and no file. -/
theorem not_table_kept :
    (¬ ∀ inetAddr file p, ServerKeepsTable inetAddr file p) ∧
      ¬ ∀ inetAddr file s, ClientKeepsTable inetAddr file s := by
  have hnot : ∀ {α : Type}, ¬ (CfgFile.unreadable : CfgFile α).HasArray := fun ⟨_, h⟩ => by cases h
  constructor
  · intro h
    obtain ⟨s, node, _, hfound, _⟩ := LinuxServer.exists_group 0x010000E1 0x0100000A
    have hkeep := (serverKeepsTable_iff _ _).mp
      (h inetAddrQuad .unreadable ⟨s, fun _ => 0x010000E1, 1⟩)
    obtain rfl := hkeep.resolve_left hnot
    rw [LinuxServer.lookupMultiNode_multiNodeInit] at hfound
    cases hfound
  · intro h
    obtain ⟨s, index, rowId, hfound⟩ :=
      LinuxClient.exists_entry 0x0100000A 0x010000E1 (show (7000 : UInt16) ≠ 0 by decide) 5000
    have hkeep := (clientKeepsTable_iff _ _).mp (h inetAddrQuad .unreadable s)
    obtain rfl := hkeep.resolve_left hnot
    obtain ⟨found, hret, hmap⟩ := LinuxClient.lookupIpPortNode_eq LinuxClient.multiNodeInit
      0x0100000A (show (7000 : UInt16) ≠ 0 by decide)
    rw [hfound] at hret
    obtain rfl := Outcome.ret.inj hret
    rw [LinuxClient.entry_multiNodeInit] at hmap
    cases hmap

end MulticastProxy.LinuxProxies
