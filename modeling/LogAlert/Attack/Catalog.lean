/-
# LogAlert.Attack.Catalog -- tactics and techniques of attackers

The enterprise tactics, and the techniques that detection rules refer to most. A technique belongs to
one tactic; the identifier of a subtechnique is that of its technique, a point and a number.
-/

set_option autoImplicit false

namespace LogAlert.Attack

/-- What an attacker is after. -/
structure Tactic where
  id : String
  name : String
  description : String
deriving DecidableEq, Repr

/-- How an attacker proceeds. -/
structure Technique where
  id : String
  name : String
  tactic : String
deriving DecidableEq, Repr

/-- The technique is a part of another one. -/
def Technique.isSubtechnique (t : Technique) : Bool := '.' ∈ t.id.toList

/-- All tactics. -/
def tactics : List Tactic :=
  [⟨"TA0043", "reconnaissance", "Gather information for planning future operations"⟩,
    ⟨"TA0042", "resource-development", "Establish resources to support operations"⟩,
    ⟨"TA0001", "initial-access", "Gain initial foothold within a network"⟩,
    ⟨"TA0002", "execution", "Run malicious code"⟩,
    ⟨"TA0003", "persistence", "Maintain access across restarts"⟩,
    ⟨"TA0004", "privilege-escalation", "Gain higher-level permissions"⟩,
    ⟨"TA0005", "defense-evasion", "Avoid detection"⟩,
    ⟨"TA0006", "credential-access", "Steal credentials"⟩,
    ⟨"TA0007", "discovery", "Explore the environment"⟩,
    ⟨"TA0008", "lateral-movement", "Move through the environment"⟩,
    ⟨"TA0009", "collection", "Gather data of interest"⟩,
    ⟨"TA0011", "command-and-control", "Communicate with compromised systems"⟩,
    ⟨"TA0010", "exfiltration", "Steal data from the network"⟩,
    ⟨"TA0040", "impact", "Manipulate, interrupt, or destroy systems/data"⟩]

/-- The techniques that rules refer to most, by tactic. -/
def techniques : List Technique :=
  [⟨"T1059", "Command and Scripting Interpreter", "execution"⟩,
    ⟨"T1059.001", "PowerShell", "execution"⟩,
    ⟨"T1059.003", "Windows Command Shell", "execution"⟩,
    ⟨"T1059.005", "Visual Basic", "execution"⟩,
    ⟨"T1059.006", "Python", "execution"⟩,
    ⟨"T1059.007", "JavaScript", "execution"⟩,
    ⟨"T1047", "Windows Management Instrumentation", "execution"⟩,
    ⟨"T1053", "Scheduled Task/Job", "execution"⟩,
    ⟨"T1053.005", "Scheduled Task", "execution"⟩,
    ⟨"T1204", "User Execution", "execution"⟩,
    ⟨"T1204.002", "Malicious File", "execution"⟩,
    ⟨"T1547", "Boot or Logon Autostart Execution", "persistence"⟩,
    ⟨"T1547.001", "Registry Run Keys / Startup Folder", "persistence"⟩,
    ⟨"T1543", "Create or Modify System Process", "persistence"⟩,
    ⟨"T1543.003", "Windows Service", "persistence"⟩,
    ⟨"T1574", "Hijack Execution Flow", "persistence"⟩,
    ⟨"T1574.001", "DLL Search Order Hijacking", "persistence"⟩,
    ⟨"T1134", "Access Token Manipulation", "privilege-escalation"⟩,
    ⟨"T1134.001", "Token Impersonation/Theft", "privilege-escalation"⟩,
    ⟨"T1068", "Exploitation for Privilege Escalation", "privilege-escalation"⟩,
    ⟨"T1548", "Abuse Elevation Control Mechanism", "privilege-escalation"⟩,
    ⟨"T1548.002", "Bypass User Account Control", "privilege-escalation"⟩,
    ⟨"T1027", "Obfuscated Files or Information", "defense-evasion"⟩,
    ⟨"T1027.010", "Command Obfuscation", "defense-evasion"⟩,
    ⟨"T1070", "Indicator Removal", "defense-evasion"⟩,
    ⟨"T1070.001", "Clear Windows Event Logs", "defense-evasion"⟩,
    ⟨"T1112", "Modify Registry", "defense-evasion"⟩,
    ⟨"T1218", "System Binary Proxy Execution", "defense-evasion"⟩,
    ⟨"T1218.011", "Rundll32", "defense-evasion"⟩,
    ⟨"T1055", "Process Injection", "defense-evasion"⟩,
    ⟨"T1562", "Impair Defenses", "defense-evasion"⟩,
    ⟨"T1562.001", "Disable or Modify Tools", "defense-evasion"⟩,
    ⟨"T1003", "OS Credential Dumping", "credential-access"⟩,
    ⟨"T1003.001", "LSASS Memory", "credential-access"⟩,
    ⟨"T1003.002", "Security Account Manager", "credential-access"⟩,
    ⟨"T1003.003", "NTDS", "credential-access"⟩,
    ⟨"T1110", "Brute Force", "credential-access"⟩,
    ⟨"T1552", "Unsecured Credentials", "credential-access"⟩,
    ⟨"T1555", "Credentials from Password Stores", "credential-access"⟩,
    ⟨"T1007", "System Service Discovery", "discovery"⟩,
    ⟨"T1018", "Remote System Discovery", "discovery"⟩,
    ⟨"T1033", "System Owner/User Discovery", "discovery"⟩,
    ⟨"T1049", "System Network Connections Discovery", "discovery"⟩,
    ⟨"T1069", "Permission Groups Discovery", "discovery"⟩,
    ⟨"T1069.001", "Local Groups", "discovery"⟩,
    ⟨"T1069.002", "Domain Groups", "discovery"⟩,
    ⟨"T1082", "System Information Discovery", "discovery"⟩,
    ⟨"T1083", "File and Directory Discovery", "discovery"⟩,
    ⟨"T1021", "Remote Services", "lateral-movement"⟩,
    ⟨"T1021.001", "Remote Desktop Protocol", "lateral-movement"⟩,
    ⟨"T1021.002", "SMB/Windows Admin Shares", "lateral-movement"⟩,
    ⟨"T1021.006", "Windows Remote Management", "lateral-movement"⟩,
    ⟨"T1570", "Lateral Tool Transfer", "lateral-movement"⟩,
    ⟨"T1005", "Data from Local System", "collection"⟩,
    ⟨"T1039", "Data from Network Shared Drive", "collection"⟩,
    ⟨"T1056", "Input Capture", "collection"⟩,
    ⟨"T1056.001", "Keylogging", "collection"⟩,
    ⟨"T1074", "Data Staged", "collection"⟩,
    ⟨"T1114", "Email Collection", "collection"⟩,
    ⟨"T1020", "Automated Exfiltration", "exfiltration"⟩,
    ⟨"T1041", "Exfiltration Over C2 Channel", "exfiltration"⟩,
    ⟨"T1048", "Exfiltration Over Alternative Protocol", "exfiltration"⟩,
    ⟨"T1567", "Exfiltration Over Web Service", "exfiltration"⟩,
    ⟨"T1485", "Data Destruction", "impact"⟩,
    ⟨"T1486", "Data Encrypted for Impact", "impact"⟩,
    ⟨"T1490", "Inhibit System Recovery", "impact"⟩,
    ⟨"T1491", "Defacement", "impact"⟩,
    ⟨"T1498", "Network Denial of Service", "impact"⟩,
    ⟨"T1499", "Endpoint Denial of Service", "impact"⟩]

/-- The tactic of this name. -/
def tactic? (name : String) : Option Tactic := tactics.find? (·.name = name)

/-- The technique with this identifier. -/
def technique? (id : String) : Option Technique := techniques.find? (·.id = id)

/-- The techniques of a tactic, in the order of the catalog. -/
def techniquesOf (tactic : String) : List Technique := techniques.filter (·.tactic = tactic)

end LogAlert.Attack
