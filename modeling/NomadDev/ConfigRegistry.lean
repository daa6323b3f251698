import Mathlib.Data.Int.Notation

/-!
Categories, descriptions and the `Dangerous` flag only reach the settings page and are left out.
-/

namespace NomadDev.Settings

inductive SettingType
  | string | int | int64 | bool | float | duration | csv | enum
  deriving DecidableEq

structure Setting where
  envVar : String
  type : SettingType
  default : String
  secret : Bool
  enum : List String
  (min max : Option ℤ)
  readOnly : Bool
  deriving DecidableEq

def setting (envVar : String) (type : SettingType) (default : String) : Setting :=
  ⟨envVar, type, default, false, [], none, none, false⟩

variable (s : Setting)

def Setting.atLeast (n : ℤ) : Setting := { s with min := some n }

def Setting.atMost (n : ℤ) : Setting := { s with max := some n }

def Setting.oneOf (values : List String) : Setting := { s with enum := values }

def Setting.hidden : Setting := { s with secret := true }

def Setting.fixed : Setting := { s with readOnly := true }

def defaultOverridePath : String := "/var/lib/nomaddev/config-override.json"

def registry : List Setting :=
  [(setting "NOMADDEV_LISTEN_ADDR" .string ":8080").fixed,
    (setting "NOMADDEV_LOG_LEVEL" .enum "info").oneOf ["debug", "info", "warn", "error"],
    (setting "NOMADDEV_JWT_SECRET" .string "").hidden,
    (setting "NOMADDEV_JWT_PREV_SECRETS" .csv "").hidden,
    (setting "NOMADDEV_CONFIG_OVERRIDE_PATH" .string defaultOverridePath).fixed,
    (setting "NOMADDEV_WS_MAX_MESSAGE_BYTES" .int64 "262144").atLeast 0,
    (setting "NOMADDEV_WS_RATE_LIMIT" .float "50").atLeast 0,
    (setting "NOMADDEV_WS_RATE_BURST" .int "100").atLeast 0,
    setting "NOMADDEV_WS_ALLOWED_ORIGINS" .csv "",
    (setting "NOMADDEV_READ_TIMEOUT" .duration "1m0s").atLeast 0,
    (setting "NOMADDEV_WRITE_TIMEOUT" .duration "10s").atLeast 0,
    (setting "NOMADDEV_PING_INTERVAL" .duration "30s").atLeast 0,
    (setting "NOMADDEV_AUTH_ACCESS_TTL" .duration "1h0m0s").atLeast 0,
    (setting "NOMADDEV_AUTH_REFRESH_TTL" .duration "720h0m0s").atLeast 0,
    (setting "NOMADDEV_AUTH_REVOCATION_BACKEND" .enum "sqlite").oneOf ["none", "memory", "sqlite"],
    setting "NOMADDEV_AUTH_REVOCATION_PATH" .string "/var/lib/nomaddev/revocations.db",
    (setting "NOMADDEV_AUTH_REVOCATION_JANITOR_INTERVAL" .duration "5m0s").atLeast 0,
    (setting "NOMADDEV_AUDIT_BACKEND" .enum "stderr").oneOf ["none", "stderr", "stdout", "file"],
    setting "NOMADDEV_AUDIT_PATH" .string "/var/lib/nomaddev/audit.log",
    setting "NOMADDEV_OTEL_ENABLED" .bool "false",
    setting "NOMADDEV_OTEL_OTLP_ENDPOINT" .string "",
    setting "NOMADDEV_OTEL_SERVICE_NAME" .string "nomaddev-orchestrator",
    setting "NOMADDEV_OTEL_SERVICE_VERSION" .string "",
    ((setting "NOMADDEV_OTEL_SAMPLE_RATIO" .float "1").atLeast 0).atMost 1,
    setting "NOMADDEV_OTEL_INSECURE" .bool "true",
    setting "NOMADDEV_WEBAUTHN_ENABLED" .bool "false",
    setting "NOMADDEV_WEBAUTHN_RPID" .string "",
    setting "NOMADDEV_WEBAUTHN_RP_DISPLAY_NAME" .string "NomadDev",
    setting "NOMADDEV_WEBAUTHN_ORIGINS" .csv "",
    setting "NOMADDEV_WEBAUTHN_STORE_PATH" .string "/var/lib/nomaddev/webauthn.db",
    (setting "NOMADDEV_SESSION_BACKEND" .enum "sqlite").oneOf ["memory", "sqlite"],
    setting "NOMADDEV_SESSION_PATH" .string "/var/lib/nomaddev/sessions.db",
    (setting "NOMADDEV_SESSION_BUFFER_SIZE" .int "256").atLeast 1,
    (setting "NOMADDEV_SESSION_MAX_BYTES" .int "1048576").atLeast 1,
    (setting "NOMADDEV_SESSION_IDLE_TTL" .duration "30m0s").atLeast 0,
    (setting "NOMADDEV_SESSION_JANITOR_INTERVAL" .duration "5m0s").atLeast 0,
    (setting "NOMADDEV_SANDBOX_RUNTIME" .enum "mock").oneOf ["mock", "docker", "none"],
    setting "NOMADDEV_SANDBOX_IMAGE" .string "alpine:3.20",
    setting "NOMADDEV_SANDBOX_REQUIRE_DIGEST" .bool "false",
    setting "NOMADDEV_SANDBOX_WORKSPACE_DIR" .string "/var/lib/nomaddev/work",
    (setting "NOMADDEV_SANDBOX_NETWORK" .enum "none").oneOf ["none", "bridge"],
    (setting "NOMADDEV_SANDBOX_DEFAULT_TIMEOUT" .duration "30s").atLeast 0,
    (setting "NOMADDEV_SANDBOX_MAX_CONCURRENT" .int "4").atLeast 0,
    (setting "NOMADDEV_SANDBOX_MEMORY" .int64 "268435456").atLeast 0,
    (setting "NOMADDEV_SANDBOX_NANOCPUS" .int64 "1000000000").atLeast 0,
    (setting "NOMADDEV_SANDBOX_PIDS_LIMIT" .int64 "256").atLeast 0,
    setting "NOMADDEV_SANDBOX_READONLY_ROOTFS" .bool "true",
    setting "NOMADDEV_SANDBOX_PREFER_RUNSC" .bool "true",
    setting "NOMADDEV_SANDBOX_PER_SESSION_WORKSPACE" .bool "false",
    (setting "NOMADDEV_SANDBOX_HEARTBEAT_INTERVAL" .duration "5s").atLeast 0,
    setting "NOMADDEV_DAEMON_MONITOR_ENABLED" .bool "false",
    setting "NOMADDEV_LSP_SERVERS" .string "",
    (setting "NOMADDEV_LSP_IDLE_TIMEOUT" .duration "5m0s").atLeast 0,
    (setting "NOMADDEV_LSP_REQUEST_TIMEOUT" .duration "30s").atLeast 0,
    (setting "NOMADDEV_MIDDLEWARE_RUNTIME" .enum "mock").oneOf ["mock", "gemini", "openai", "anthropic", "deepseek", "none"],
    setting "NOMADDEV_MIDDLEWARE_SYSTEM_PROMPT" .string "",
    setting "NOMADDEV_MIDDLEWARE_SYSTEM_PROMPT_PATH" .string "",
    (setting "NOMADDEV_MIDDLEWARE_MAX_CONCURRENT" .int "4").atLeast 0,
    (setting "NOMADDEV_MAX_AUTORETRIES" .int "2").atLeast 0,
    (setting "NOMADDEV_LLM_MAX_RETRIES" .int "2").atLeast 0,
    (setting "NOMADDEV_GEMINI_API_KEY" .string "").hidden,
    setting "NOMADDEV_GEMINI_MODEL" .string "gemini-2.0-flash",
    ((setting "NOMADDEV_GEMINI_TEMPERATURE" .float "0.2").atLeast 0).atMost 1,
    (setting "NOMADDEV_GEMINI_MAX_TOKENS" .int "4096").atLeast 1,
    (setting "NOMADDEV_OPENAI_API_KEY" .string "").hidden,
    setting "NOMADDEV_OPENAI_MODEL" .string "gpt-4o-mini",
    setting "NOMADDEV_OPENAI_BASE_URL" .string "",
    (setting "NOMADDEV_ANTHROPIC_API_KEY" .string "").hidden,
    setting "NOMADDEV_ANTHROPIC_MODEL" .string "claude-sonnet-4-5",
    (setting "NOMADDEV_ANTHROPIC_THINKING_BUDGET" .int64 "0").atLeast 0,
    (setting "NOMADDEV_DEEPSEEK_API_KEY" .string "").hidden,
    setting "NOMADDEV_DEEPSEEK_MODEL" .string "deepseek-chat",
    (setting "NOMADDEV_USER_INTENT_MAX_IMAGES" .int "4").atLeast 0,
    (setting "NOMADDEV_USER_INTENT_MAX_IMAGE_BYTES" .int "5242880").atLeast 0,
    (setting "NOMADDEV_HISTORY_BACKEND" .enum "sqlite").oneOf ["memory", "sqlite"],
    setting "NOMADDEV_HISTORY_PATH" .string "/var/lib/nomaddev/history.db",
    (setting "NOMADDEV_HISTORY_WINDOW_TURNS" .int "20").atLeast 0,
    setting "NOMADDEV_HISTORY_SUMMARY_ENABLED" .bool "false",
    setting "NOMADDEV_HISTORY_SUMMARY_URL" .string "",
    (setting "NOMADDEV_HISTORY_SUMMARY_AUTH_HEADER" .string "").hidden,
    (setting "NOMADDEV_HISTORY_SUMMARY_WORD_THRESHOLD" .int "15000").atLeast 0,
    (setting "NOMADDEV_HISTORY_SUMMARY_INTERVAL" .duration "5m0s").atLeast 0,
    (setting "NOMADDEV_HISTORY_SUMMARY_TIMEOUT" .duration "30s").atLeast 0,
    setting "NOMADDEV_APPROVAL_REQUIRED_TOOLS" .csv "execute_script,write_patch,apply_code_patch",
    (setting "NOMADDEV_APPROVAL_TIMEOUT" .duration "1m0s").atLeast 0,
    setting "NOMADDEV_APPROVAL_AUTO_GRANT" .bool "false",
    setting "NOMADDEV_APPROVAL_GATE_DIRECT_COMMANDS" .bool "true",
    setting "NOMADDEV_WORKER_POOL_ENABLED" .bool "false",
    (setting "NOMADDEV_WORKER_POOL_MAX" .int "4").atLeast 1,
    (setting "NOMADDEV_WORKER_POOL_MAX_TASKS" .int "8").atLeast 1,
    (setting "NOMADDEV_WORKER_POOL_TASK_TIMEOUT" .duration "10m0s").atLeast 0,
    setting "NOMADDEV_DOC_FETCH_ALLOWED_DOMAINS" .csv "",
    setting "NOMADDEV_SPA_ENABLED" .bool "true",
    setting "NOMADDEV_SPA_DIR" .string "",
    (setting "NOMADDEV_GITHUB_TOKEN" .string "").hidden,
    setting "NOMADDEV_GITHUB_USER_TOKENS_PATH" .string "",
    setting "NOMADDEV_GITHUB_MCP_BIN" .string "",
    setting "NOMADDEV_GITHUB_TOOLSETS" .csv "all",
    setting "NOMADDEV_GITHUB_READ_ONLY" .bool "false",
    setting "NOMADDEV_GITHUB_HOST" .string "",
    setting "NOMADDEV_GITHUB_LOCKDOWN" .bool "false",
    (setting "NOMADDEV_GITHUB_START_TIMEOUT" .duration "15s").atLeast 0,
    (setting "NOMADDEV_GITHUB_MAX_ARG_BYTES" .int "262144").atLeast 0,
    (setting "NOMADDEV_GITHUB_MAX_RESULT_BYTES" .int "1048576").atLeast 0,
    (setting "NOMADDEV_GITHUB_RATE_LIMIT_RETRIES" .int "3").atLeast 0,
    (setting "NOMADDEV_GITHUB_RATE_LIMIT_BASE_BACKOFF" .duration "1s").atLeast 0]

def lookup (envVar : String) : Option Setting := registry.find? fun s => s.envVar == envVar

end NomadDev.Settings
