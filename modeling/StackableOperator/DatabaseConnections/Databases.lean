import Mathlib
import StackableOperator.Commons.Url
import StackableOperator.V2.Builder.Pod.Container

/-!
# Database connections

The connections of PostgreSQL, MySQL and Redis in the formats of JDBC, SQLAlchemy and Celery. The
credentials are environment variables from a Secret, which templates of URLs refer to.
-/

namespace StackableOperator

open V2 (EnvVar)

/-- How environment variables are substituted. -/
inductive TemplatingMechanism : Type
  | configUtils
  | bashEnvSubstitution
  deriving DecidableEq

inductive DatabaseConnectionError : Type
  | postgresqlParseConnectionUrl
  | mysqlParseConnectionUrl
  deriving DecidableEq

/-! ### Helpers -/

def envVarWithValueFromSecret (envVarName secretName secretKey : String) : EnvVar where
  name := envVarName
  value := none
  valueFrom := some
    { configMapKeyRef := none
      fieldRef := none
      secretKeyRef := some { key := secretKey, name := secretName, optional := none } }

/-- The name of a database consists of ASCII letters and underscores. -/
def usernameAndPasswordEnvNames (uniqueDatabaseName : String) : String × String :=
  let envNamePrefix := uniqueDatabaseName.toUpper ++ "_DATABASE"
  (envNamePrefix ++ "_USERNAME", envNamePrefix ++ "_PASSWORD")

def usernameAndPasswordEnvs (uniqueDatabaseName credentialsSecretName : String) :
    EnvVar × EnvVar :=
  let (usernameEnvName, passwordEnvName) := usernameAndPasswordEnvNames uniqueDatabaseName
  (envVarWithValueFromSecret usernameEnvName credentialsSecretName "username",
    envVarWithValueFromSecret passwordEnvName credentialsSecretName "password")

def connectionParametersAsUrlQueryParameters (parameters : BTreeMap String String) :
    Option String :=
  let entries := IterMap.iter (M := BTreeMap String) parameters
  if entries = [] then none
  else some ("?" ++ "&".intercalate (entries.map fun e => e.1 ++ "=" ++ e.2))

/-- The placeholders of two variables, as user information. -/
def TemplatingMechanism.credentials (self : TemplatingMechanism)
    (usernameEnvName passwordEnvName : String) : String :=
  match self with
  | .configUtils =>
    "$\x7benv:" ++ usernameEnvName ++ "\x7d:$\x7benv:" ++ passwordEnvName ++ "\x7d"
  | .bashEnvSubstitution =>
    "$\x7b" ++ usernameEnvName ++ "\x7d:$\x7b" ++ passwordEnvName ++ "\x7d"

/-! ### Details of connections -/

structure JdbcDatabaseConnectionDetails (urls : UrlLibrary) where
  driver : String
  connectionUrl : urls.Url
  usernameEnv : Option EnvVar
  passwordEnv : Option EnvVar

/-- The details for SQLAlchemy and Celery. -/
structure TemplateConnectionDetails where
  urlTemplate : String
  usernameEnv : Option EnvVar
  passwordEnv : Option EnvVar
  genericUrlVar : Option EnvVar

/-- A connection URL that begins with a scheme and credentials, up to its host. -/
def templateConnectionDetails (scheme : String) (mechanism : TemplatingMechanism)
    (uniqueDatabaseName credentialsSecretName rest : String) : TemplateConnectionDetails :=
  let (usernameEnv, passwordEnv) :=
    usernameAndPasswordEnvs uniqueDatabaseName credentialsSecretName
  { urlTemplate :=
      scheme ++ "://" ++ mechanism.credentials usernameEnv.name passwordEnv.name ++ "@" ++ rest
    usernameEnv := some usernameEnv
    passwordEnv := some passwordEnv
    genericUrlVar := none }

/-! ### PostgreSQL -/

structure PostgresqlConnection where
  host : HostName
  port : UInt16 := 5432
  database : String
  credentialsSecretName : String
  parameters : BTreeMap String String := ∅

namespace PostgresqlConnection

variable (self : PostgresqlConnection)

/-- The host and what follows it in all URLs. -/
def location : String :=
  self.host.display ++ portText (some self.port) ++ "/" ++ self.database ++
    (connectionParametersAsUrlQueryParameters self.parameters).getD ""

def jdbcConnectionDetailsWithTemplating (urls : UrlLibrary) (uniqueDatabaseName : String)
    (_templatingMechanism : TemplatingMechanism) :
    Except DatabaseConnectionError (JdbcDatabaseConnectionDetails urls) :=
  let (usernameEnv, passwordEnv) :=
    usernameAndPasswordEnvs uniqueDatabaseName self.credentialsSecretName
  match urls.parse ("jdbc:postgresql://" ++ self.location) with
  | none => .error .postgresqlParseConnectionUrl
  | some connectionUrl => .ok
    { driver := "org.postgresql.Driver"
      connectionUrl
      usernameEnv := some usernameEnv
      passwordEnv := some passwordEnv }

def sqlalchemyConnectionDetailsWithTemplating (uniqueDatabaseName : String)
    (templatingMechanism : TemplatingMechanism) : TemplateConnectionDetails :=
  templateConnectionDetails "postgresql+psycopg2" templatingMechanism uniqueDatabaseName
    self.credentialsSecretName self.location

def celeryConnectionDetailsWithTemplating (uniqueDatabaseName : String)
    (templatingMechanism : TemplatingMechanism) : TemplateConnectionDetails :=
  templateConnectionDetails "db+postgresql" templatingMechanism uniqueDatabaseName
    self.credentialsSecretName self.location

end PostgresqlConnection

/-! ### MySQL -/

structure MysqlConnection where
  host : HostName
  port : UInt16 := 3306
  database : String
  credentialsSecretName : String
  parameters : BTreeMap String String := ∅

def MysqlConnection.jdbcConnectionDetailsWithTemplating (self : MysqlConnection)
    (urls : UrlLibrary) (uniqueDatabaseName : String) (_templatingMechanism : TemplatingMechanism) :
    Except DatabaseConnectionError (JdbcDatabaseConnectionDetails urls) :=
  let (usernameEnv, passwordEnv) :=
    usernameAndPasswordEnvs uniqueDatabaseName self.credentialsSecretName
  let connectionUrl := "jdbc:mysql://" ++ self.host.display ++ portText (some self.port) ++ "/" ++
    self.database ++ (connectionParametersAsUrlQueryParameters self.parameters).getD ""
  match urls.parse connectionUrl with
  | none => .error .mysqlParseConnectionUrl
  | some connectionUrl => .ok
    { driver := "com.mysql.jdbc.Driver"
      connectionUrl
      usernameEnv := some usernameEnv
      passwordEnv := some passwordEnv }

/-! ### Redis -/

structure RedisConnection where
  host : HostName
  port : UInt16 := 6379
  databaseId : UInt16 := 0
  credentialsSecretName : String

def RedisConnection.celeryConnectionDetailsWithTemplating (self : RedisConnection)
    (uniqueDatabaseName : String) (templatingMechanism : TemplatingMechanism) :
    TemplateConnectionDetails :=
  templateConnectionDetails "redis" templatingMechanism uniqueDatabaseName
    self.credentialsSecretName
    (self.host.display ++ portText (some self.port) ++ "/" ++ toString self.databaseId.toNat)

end StackableOperator
